import KernelSync.Text.Pad

/-!
The two ways in which a scheduler can keep priorities.
-/

namespace KernelSync

/-- Under `priorityDonation` a waiter lends its priority to the holder it waits for. Under
`feedbackQueue` priorities are recomputed elsewhere, and the primitives leave them alone. -/
inductive SchedulingMode where
  | priorityDonation
  | feedbackQueue
  deriving DecidableEq, Repr

namespace SchedulingMode

instance : Inhabited SchedulingMode := ⟨priorityDonation⟩

def donates : SchedulingMode → Bool
  | priorityDonation => true
  | feedbackQueue => false

def text : SchedulingMode → String
  | priorityDonation => "priority donation"
  | feedbackQueue => "multilevel feedback queue"

def debugText : SchedulingMode → String
  | priorityDonation => "PriorityDonation"
  | feedbackQueue => "FeedbackQueue"

/-- The text cut to `precision` characters, then filled up to `width`. -/
def padded (mode : SchedulingMode) (align : Text.Align) (fill : Char)
    (width precision : Text.Extent) : String :=
  Text.pad align fill width (Text.cut precision mode.text)

end SchedulingMode

end KernelSync
