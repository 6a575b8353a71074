import ByteMachine.Session.Basic

/-!
# Loads

Whether a load succeeds depends on its text alone. A load that succeeds installs the same program in
every session, and a load that fails leaves the session as it is.
-/
namespace ByteMachine

def Response.accepts : Response → Bool
  | .loaded reply => reply.success
  | _ => false

def Response.rejects : Response → Bool
  | .loaded reply => !reply.success
  | _ => false

namespace Session

theorem load_of_ok {source : Text} {p : Program} (h : assemble source = .ok p) (s : Session) :
    s.load source = (s.install p, ⟨true, s!"assembled {p.size} instructions"⟩) := by
  rw [load, h]

theorem loadImage_of_ok {image : Text} {p : Program} (h : readImage image = .ok p) (s : Session) :
    s.loadImage image = (s.install p, ⟨true, s!"loaded {p.size} instructions"⟩) := by
  rw [loadImage, h]

/-- A load that succeeds installs the same program in every session. -/
theorem exists_install_of_accepts {s : Session} {op : Operation}
    (h : (s.perform op).2.accepts = true) :
    ∃ p, ∀ t : Session, (t.perform op).1 = t.install p ∧ (t.perform op).2.accepts = true := by
  cases op with
  | load source =>
    cases hassemble : assemble source with
    | ok p =>
      refine ⟨p, fun t => ?_⟩
      simp only [perform, load_of_ok hassemble, Response.accepts, and_self]
    | error diagnostics => simp [perform, load, hassemble, Response.accepts] at h
  | loadImage image =>
    cases hread : readImage image with
    | ok p =>
      refine ⟨p, fun t => ?_⟩
      simp only [perform, loadImage_of_ok hread, Response.accepts, and_self]
    | error diagnostics => simp [perform, loadImage, hread, Response.accepts] at h
  | step | run limit | reset | state | listing | breakpoint address | input value => cases h

/-- A load that fails leaves the session as it is. -/
theorem perform_of_rejects {s : Session} {op : Operation} (h : (s.perform op).2.rejects = true) :
    (s.perform op).1 = s := by
  cases op with
  | load source =>
    cases hassemble : assemble source with
    | ok p => simp [perform, load, hassemble, Response.rejects] at h
    | error diagnostics => simp only [perform, load, hassemble]
  | loadImage image =>
    cases hread : readImage image with
    | ok p => simp [perform, loadImage, hread, Response.rejects] at h
    | error diagnostics => simp only [perform, loadImage, hread]
  | step | run limit | reset | state | listing | breakpoint address | input value => cases h

end Session
end ByteMachine
