import ByteMachine.Main
import ByteMachine.Proofs.InstructionWords
import ByteMachine.Proofs.Numerals
import ByteMachine.Proofs.Tokens
import ByteMachine.Proofs.OperandMeaning
import ByteMachine.Proofs.SourceMeaning
import ByteMachine.Proofs.FirstPass
import ByteMachine.Proofs.AssemblyMeaning
import ByteMachine.Proofs.ListingRoundTrip
import ByteMachine.Proofs.Runs
import ByteMachine.Proofs.ControlState
import ByteMachine.Proofs.PanelBreakpoints
import ByteMachine.Proofs.RunSplitting
import ByteMachine.Proofs.RunSteps
import ByteMachine.Proofs.HaltReasons
import ByteMachine.Proofs.SymbolOperands
import ByteMachine.Proofs.SymbolTable
import ByteMachine.Proofs.ImageRoundTrip
import ByteMachine.Proofs.CallReturns
import ByteMachine.Proofs.HistoryIndependence
import ByteMachine.Proofs.LegalPrograms
import ByteMachine.Proofs.HaltedSessions
import ByteMachine.Proofs.WordLayout
import ByteMachine.Proofs.BreakpointParity
import ByteMachine.Proofs.LineBytes
import ByteMachine.Proofs.ServedLines
import ByteMachine.Proofs.UnreadableLines
import ByteMachine.Proofs.PanelView
import ByteMachine.Proofs.LetterCase
import ByteMachine.Proofs.Respelling
import ByteMachine.Proofs.Reformatting
import ByteMachine.Proofs.Checked.Sessions
import ByteMachine.Proofs.InstructionTable
import ByteMachine.Proofs.FaultAtomicity
import ByteMachine.Proofs.BoundNames
import ByteMachine.Proofs.RejectedLines
import ByteMachine.Proofs.MemoryAnswers
import ByteMachine.Proofs.ScreenHistory
import ByteMachine.Proofs.DisplayHistory
import ByteMachine.Proofs.ImageLines
import ByteMachine.Proofs.LastInstruction
import ByteMachine.Proofs.PanelEvents
import ByteMachine.Proofs.PanelListing
import ByteMachine.Proofs.PanelGrid
import ByteMachine.Proofs.PanelChanges
import ByteMachine.Proofs.CommentMarkers
import ByteMachine.Proofs.LiteralForms
import ByteMachine.Proofs.NameBindings
