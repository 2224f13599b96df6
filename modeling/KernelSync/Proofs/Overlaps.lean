import KernelSync.Proofs.Sections

/-!
Overlapping accesses. `Comes` follows a computation from where it starts to any of its parts, and
lists the accesses that are in progress around that part. The flags of the cells show just these
accesses, whatever has been refused, cut short or caught on the way (`Comes.flags`). So an access is
refused just if one to the same cell is in progress around it (`overlaps_refused_exactly`).
-/

namespace KernelSync

open Stretch Kernel

variable {α β : Type} {k k' : Kernel} {cell other : CellId}

/-! ### Flags -/

namespace Kernel

/-- The cell is there. -/
def Present (k : Kernel) : CellId → Prop
  | .threads => True
  | .semaphore s => s.index < k.semaphores.length
  | .condvar c => c.index < k.condvars.length
  | .data i => i < k.data.length

instance (k : Kernel) : (cell : CellId) → Decidable (k.Present cell)
  | .threads => inferInstanceAs (Decidable True)
  | .semaphore _ | .condvar _ | .data _ => inferInstanceAs (Decidable (_ < _))

theorem busy_getD_modify_true {cells : List (Cell β)} {i : Nat} {absent : Cell β}
    (present : i < cells.length) :
    ((cells.modify i ({ · with busy := true })).getD i absent).busy = true := by
  simp [List.getD_eq_getElem?_getD, present]

/-- The flag of a cell that is taken goes up. -/
theorem busy_setBusy_true (present : k.Present cell) : (k.setBusy true cell).busy cell = true := by
  cases cell with
  | threads => rfl
  | semaphore | condvar | data => exact busy_getD_modify_true present

/-- An access that finds the flag up is refused. -/
theorem accessing_run_of_busy (busy : k.busy cell = true) (body : Stretch Kernel α) :
    accessing cell body k = ⟨.error (.overlap cell), k, []⟩ := by
  simp [accessing, bind_run, require_run_of_not, busy]

/-- Every access to the cell is refused: its body does not run, and nothing changes. -/
def RefusesAccess (k : Kernel) (cell : CellId) : Prop :=
  ∀ {α : Type} (body : Stretch Kernel α),
    accessing cell body k = ⟨.error (.overlap cell), k, []⟩

/-- Every access to the cell runs its body, with the flag up, and ends as the body does. -/
def GrantsAccess (k : Kernel) (cell : CellId) : Prop :=
  ∀ {α : Type} (body : Stretch Kernel α),
    accessing cell body k =
      ⟨(body (k.setBusy true cell)).outcome, (body (k.setBusy true cell)).state.setBusy false cell,
        (body (k.setBusy true cell)).events⟩

theorem refusesAccess_of_busy (busy : k.busy cell = true) : k.RefusesAccess cell :=
  fun body => accessing_run_of_busy busy body

theorem grantsAccess_of_calm (calm : k.busy cell = false) : k.GrantsAccess cell :=
  fun body => accessing_run calm body

/-- When an access that was granted is over, however it has ended, the next one is granted. -/
theorem GrantsAccess.again (grants : k.GrantsAccess cell) (body : Stretch Kernel α) :
    (accessing cell body k).state.GrantsAccess cell := by
  apply grantsAccess_of_calm
  rw [grants body]
  exact busy_setBusy_false cell

end Kernel

/-! ### On the way to a part -/

/-- Run from `k` with accesses to the cells `around` in progress, the computation comes to its part
`y`, from `k'` on and with accesses to the cells `inside` in progress, the innermost first. What it
has done before is built from sections, accesses, calls, faults and catches. -/
inductive Comes (answer : Request → Stretch Kernel Unit) (y : Stretch Kernel β) (k' : Kernel)
    (inside : List CellId) : {α : Type} → Stretch Kernel α → Kernel → List CellId → Prop where
  | here : Comes answer y k' inside y k' inside
  | attempt {α : Type} {x : Stretch Kernel α} {k : Kernel} {around : List CellId}
      (within : Comes answer y k' inside x k around) :
      Comes answer y k' inside (catching x) k around
  | first {α γ : Type} {x : Stretch Kernel α} {f : α → Stretch Kernel γ} {k : Kernel}
      {around : List CellId} (within : Comes answer y k' inside x k around) :
      Comes answer y k' inside (x >>= f) k around
  | next {α γ : Type} {x : Stretch Kernel α} {f : α → Stretch Kernel γ} {k : Kernel}
      {around : List CellId} {a : α} (body : Body answer x) (ends : (x k).outcome = .ok a)
      (goesOn : Comes answer y k' inside (f a) (x k).state around) :
      Comes answer y k' inside (x >>= f) k around
  | scope {α : Type} {x : Nat → Stretch Kernel α} {k : Kernel} {around : List CellId}
      (within : Comes answer y k' inside (x k.depth) { k with depth := k.depth + 1 } around) :
      Comes answer y k' inside (inSection x) k around
  | access {α : Type} {x : Stretch Kernel α} {k : Kernel} {around : List CellId} {cell : CellId}
      (present : k.Present cell) (calm : k.busy cell = false)
      (within : Comes answer y k' inside x (k.setBusy true cell) (cell :: around)) :
      Comes answer y k' inside (accessing cell x) k around

variable {answer : Request → Stretch Kernel Unit} {x : Stretch Kernel α} {y : Stretch Kernel β}
  {around inside : List CellId}

/-- The flags that are up are those of the accesses in progress. -/
def Flagged (k : Kernel) (around : List CellId) : Prop :=
  ∀ cell, k.busy cell = true ↔ cell ∈ around

/-- To take a cell is to raise its flag and no other. -/
theorem Flagged.take (flagged : Flagged k around) (present : k.Present cell) :
    Flagged (k.setBusy true cell) (cell :: around) := by
  intro other
  by_cases here : other = cell
  · subst here
    simp [busy_setBusy_true present]
  · rw [busy_setBusy_of_ne here, flagged other, List.mem_cons]
    simp [here]

/-- Wherever a computation comes to, the flags show the accesses around that part. A part that has
ended before has put the flags back, and a caught fault has left none up. -/
theorem Comes.flags (comes : Comes answer y k' inside x k around)
    (keeps : ∀ request, WellNested (answer request)) (flagged : Flagged k around) :
    Flagged k' inside := by
  induction comes with
  | here => exact flagged
  | attempt _ ih | first _ ih => exact ih flagged
  | next body _ _ ih =>
    apply ih
    intro cell
    rw [(body.wellNested keeps _).busy cell]
    exact flagged cell
  | scope _ ih =>
    apply ih
    intro cell
    rw [Frame.busy_withDepth]
    exact flagged cell
  | access present _ _ ih => exact ih (flagged.take present)

/-! ### On the way through a nesting program -/

namespace Nesting

open KernelSync.Frame (noting)

variable {saved : Option Nat} {act : Act} {acts body : List Act} {index : Nat} {amount : Int64}

theorem comes_first (comes : Comes noting y k' inside (exec saved act) k around) :
    Comes noting y k' inside (execAll saved (act :: acts)) k around :=
  .first comes

theorem comes_next (ends : (exec saved act k).outcome = .ok ())
    (comes : Comes noting y k' inside (execAll saved acts) (exec saved act k).state around) :
    Comes noting y k' inside (execAll saved (act :: acts)) k around :=
  .next (body_exec saved act) ends comes

theorem comes_attempt (comes : Comes noting y k' inside (execAll saved body) k around) :
    Comes noting y k' inside (exec saved (.attempt body)) k around :=
  .first (.attempt comes)

theorem comes_access (present : k.Present (.data index)) (calm : k.busy (.data index) = false)
    (comes : Comes noting y k' inside (execAll saved body)
      ((k.setBusy true (.data index)).setData index
        (((k.setBusy true (.data index)).dataCell index).value + amount)) (.data index :: around)) :
    Comes noting y k' inside (exec saved (.access index amount body)) k around :=
  .access present calm (.next (.look _) rfl (.next (.store (fun _ => _) index) rfl
    (.next (body_see _) rfl comes)))

/-- No flag is up when a program begins. -/
theorem flagged_start {threads : Nat} {numbers : List Int64} :
    Flagged (start threads numbers) [] := by
  intro cell
  have calm : (start threads numbers).busy cell = false := by
    cases cell with
    | threads => rfl
    | semaphore s =>
      rcases s with ⟨_ | _ | index⟩ <;> rfl
    | condvar c =>
      rcases c with ⟨_ | index⟩ <;> rfl
    | data index =>
      show ((numbers.map fun value => (⟨value, false⟩ : Cell Int64)).getD index ⟨0, false⟩).busy =
        false
      rw [List.getD_eq_getElem?_getD, List.getElem?_map]
      cases numbers[index]? with
      | none => rfl
      | some value => rfl
  simp [calm]

/-- An access is refused just if one to the same cell is in progress around it. This holds at every
point of every computation that starts with no access in progress and is built from sections,
accesses, calls, faults and catches, nested in any way, under a scheduler that restores what it found;
nesting programs are among them. A refused access runs nothing of its body, reports nothing and leaves
all as it was, the flag of the outer access included, so that the next one is refused as well. One
that is granted runs its body; when it is over, normally or by a fault, the cell is free again. -/
theorem overlaps_refused_exactly (keeps : ∀ request, WellNested (answer request))
    (idle : Flagged k []) (comes : Comes answer y k' inside x k []) (cell : CellId) :
    (k'.RefusesAccess cell ↔ cell ∈ inside) ∧ (k'.GrantsAccess cell ↔ cell ∉ inside) ∧
      (cell ∉ inside → ∀ {γ : Type} (body : Stretch Kernel γ),
        (accessing cell body k').state.GrantsAccess cell) := by
  have flagged := comes.flags keeps idle cell
  have refuses : cell ∈ inside → k'.RefusesAccess cell := fun mem =>
    refusesAccess_of_busy (flagged.mpr mem)
  have grants : cell ∉ inside → k'.GrantsAccess cell := by
    intro absent
    apply grantsAccess_of_calm
    exact Bool.eq_false_iff.mpr fun busy => absent (flagged.mp busy)
  -- an access to the cell that does nothing tells one from the other
  have apart : k'.RefusesAccess cell → ¬ k'.GrantsAccess cell := by
    intro refused granted
    have both := (refused (Pure.pure ())).symm.trans (granted (Pure.pure ()))
    cases congrArg Run.outcome both
  refine ⟨⟨fun refused => ?_, refuses⟩, ⟨fun granted mem => ?_, grants⟩, fun absent γ body => ?_⟩
  · by_contra absent
    exact apart refused (grants absent)
  · exact apart (refuses mem) granted
  · exact GrantsAccess.again (grants absent) body

/-! ### A program that overlaps twice -/

/-- Accesses the first number inside itself, with the second one in between and then at once, and once
more when the fault of that has been caught. -/
def overlapping : List Act :=
  [.attempt [.access 0 1 [.attempt [.access 1 1 [.access 0 1 []]], .access 0 1 []]], .access 0 1 []]

/-- The first two of the inner accesses are refused, although the first refusal was caught between
them; the last one is granted. -/
theorem caught_overlap_stays_refused : ∃ k₁ k₂ k₃,
    Comes noting (execAll none [.access 0 1 []]) k₁ [.data 1, .data 0]
      (execAll none overlapping) (start 1 [5, 7]) [] ∧ k₁.RefusesAccess (.data 0) ∧
    Comes noting (execAll none [.access 0 1 []]) k₂ [.data 0]
      (execAll none overlapping) (start 1 [5, 7]) [] ∧ k₂.RefusesAccess (.data 0) ∧
    Comes noting (execAll none [.access 0 1 []]) k₃ []
      (execAll none overlapping) (start 1 [5, 7]) [] ∧ k₃.GrantsAccess (.data 0) ∧
    (run 1 [5, 7] overlapping).events =
      [.saw (.cell 0 6), .saw (.cell 1 8), .saw (.caught (Fault.overlap (.data 0)).message),
        .saw (.caught (Fault.overlap (.data 0)).message), .saw (.cell 0 7)] := by
  obtain ⟨k₁, innermost⟩ : ∃ k₁, Comes noting (execAll none [.access 0 1 []]) k₁ [.data 1, .data 0]
      (execAll none overlapping) (start 1 [5, 7]) [] := by
    apply Exists.intro
    apply comes_first
    apply comes_attempt
    apply comes_first
    apply comes_access (by decide) rfl
    apply comes_first
    apply comes_attempt
    apply comes_first
    apply comes_access (by decide) rfl
    exact .here
  obtain ⟨k₂, between⟩ : ∃ k₂, Comes noting (execAll none [.access 0 1 []]) k₂ [.data 0]
      (execAll none overlapping) (start 1 [5, 7]) [] := by
    apply Exists.intro
    apply comes_first
    apply comes_attempt
    apply comes_first
    apply comes_access (by decide) rfl
    apply comes_next rfl
    exact .here
  obtain ⟨k₃, last⟩ : ∃ k₃, Comes noting (execAll none [.access 0 1 []]) k₃ []
      (execAll none overlapping) (start 1 [5, 7]) [] := by
    apply Exists.intro
    apply comes_next rfl
    exact .here
  have keeps := Frame.wellNested_noting
  exact ⟨k₁, k₂, k₃,
    innermost, (overlaps_refused_exactly keeps flagged_start innermost (.data 0)).1.mpr (by decide),
    between, (overlaps_refused_exactly keeps flagged_start between (.data 0)).1.mpr (by decide),
    last, (overlaps_refused_exactly keeps flagged_start last (.data 0)).2.1.mpr (by decide),
    by decide⟩

end Nesting

end KernelSync
