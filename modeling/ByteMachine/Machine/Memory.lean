import ByteMachine.Machine.Devices

/-!
# Memory

Two hundred and fifty-six byte cells, with the ports of the devices over the last sixteen. A store
fills the cell and writes to the port; a load reads the cell unless the port answers.
-/
namespace ByteMachine

structure Memory where
  cells : Vector UInt8 256 := Vector.replicate 256 0
  devices : Devices

namespace Memory

def new (source : RandomSource) : Memory := { devices := .new source }

def cell (m : Memory) (address : UInt8) : UInt8 := m.cells.get ⟨address.toNat, address.toNat_lt⟩

def load (m : Memory) (address : UInt8) : UInt8 × Memory :=
  match Port.ofAddress? address with
  | none => (m.cell address, m)
  | some port =>
    let (answer, devices) := m.devices.read port
    (answer.getD (m.cell address), { m with devices })

def store (m : Memory) (address value : UInt8) : Memory :=
  { cells := m.cells.set address.toNat value address.toNat_lt
    devices := match Port.ofAddress? address with
      | none => m.devices
      | some port => m.devices.write value port }

def reset (m : Memory) : Memory := { devices := m.devices.reset }

/-- Sets the sample that the controller port answers with. -/
def setController (m : Memory) (value : UInt8) : Memory :=
  { m with devices := { m.devices with controller := value } }

end Memory
end ByteMachine
