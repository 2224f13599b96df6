/-!
Text set in a column: cut to a number of characters, or filled up to a width. Widths count
characters, and a text wider than its column stays whole.
-/

namespace KernelSync.Text

/-- A number of characters that a column may measure: one that fits 16 bits. -/
structure Extent where
  size : Nat
  size_le : size ≤ 65535
  deriving DecidableEq, Repr

/-- There is no extent above 65535. -/
def Extent.ofSize? (size : Nat) : Option Extent :=
  if h : size ≤ 65535 then some ⟨size, h⟩ else none

/-- Where the text stands in its column. -/
inductive Align where
  | left
  | right
  | center
  deriving DecidableEq, Repr

/-- `count` copies of the filling character. -/
def filling (fill : Char) (count : Nat) : String :=
  String.ofList (List.replicate count fill)

/-- Fills `text` up to `width`; of an odd filling the larger half of centred text goes right. -/
def pad (align : Align) (fill : Char) (width : Extent) (text : String) : String :=
  let room := width.size - text.length
  match align with
  | .left => text ++ filling fill room
  | .right => filling fill room ++ text
  | .center => filling fill (room / 2) ++ text ++ filling fill (room - room / 2)

/-- The first `count` characters. -/
def cut (count : Extent) (text : String) : String :=
  String.ofList (text.toList.take count.size)

end KernelSync.Text
