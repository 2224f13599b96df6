import KernelSync.Text.Pad

/-!
Thread priorities: the levels 0 to 63, a higher level being more urgent.
-/

namespace KernelSync

/-- How urgent a thread is. -/
structure Priority where
  level : Nat
  level_le : level ≤ 63
  deriving DecidableEq, Repr

namespace Priority

def lowest : Priority := ⟨0, by decide⟩

/-- The level of a thread whose creator states no other. -/
def standard : Priority := ⟨31, by decide⟩

def highest : Priority := ⟨63, by decide⟩

instance : Inhabited Priority := ⟨standard⟩

/-- There is no priority above level 63. -/
def ofLevel? (level : Nat) : Option Priority :=
  if h : level ≤ 63 then some ⟨level, h⟩ else none

/-! ### Order -/

instance : LE Priority := ⟨fun p q => p.level ≤ q.level⟩

instance : LT Priority := ⟨fun p q => p.level < q.level⟩

instance (p q : Priority) : Decidable (p ≤ q) := inferInstanceAs (Decidable (p.level ≤ q.level))

instance (p q : Priority) : Decidable (p < q) := inferInstanceAs (Decidable (p.level < q.level))

instance : Max Priority := ⟨fun p q => if p ≤ q then q else p⟩

instance : Min Priority := ⟨fun p q => if p ≤ q then p else q⟩

def compare (p q : Priority) : Ordering := Ord.compare p.level q.level

/-! ### Text -/

/-- The plain number. -/
def text (p : Priority) : String := toString p.level

/-- The number under the name of its type. -/
def debugText (p : Priority) : String := "Priority(" ++ p.text ++ ")"

/-- The number with its sign. -/
def signedText (p : Priority) : String := "+" ++ p.text

/-- The number set in a column. -/
def padded (p : Priority) (align : Text.Align) (fill : Char) (width : Text.Extent) : String :=
  Text.pad align fill width p.text

end Priority

end KernelSync
