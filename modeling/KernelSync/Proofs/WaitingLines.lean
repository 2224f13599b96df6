import KernelSync.Proofs.DonorLists
import KernelSync.Proofs.System
import Mathlib.Data.List.Nodup

/-!
Waiting lines. Those who come to a line are put in somewhere, and whoever leaves is taken from the
front, after the line has been sorted by levels that may have changed since. To sort leaves members
of one level in the order in which they stand. So among equals the first to leave is the first to
come, unless it has overtaken the other: when it came, or when the line was sorted while it was at a
higher level (`Line.leaves_first`).
-/

namespace KernelSync

/-! ### Order in lists -/

section Order

variable {α : Type} {a b x : α} {list front back : List α}

/-- Nobody stands both in front of another and behind. -/
theorem not_ahead_of_behind (nodup : list.Nodup) (ahead : [a, b].Sublist list) :
    ¬ [b, a].Sublist list := by
  induction list with
  | nil => exact nomatch ahead
  | cons first rest ih =>
    have ⟨fresh, nodup⟩ := List.nodup_cons.mp nodup
    intro behind
    cases ahead with
    | cons _ ahead =>
      cases behind with
      | cons _ behind => exact ih nodup ahead behind
      | cons_cons _ behind => exact fresh (ahead.subset (by simp))
    | cons_cons _ ahead =>
      cases behind with
      | cons _ behind => exact fresh (behind.subset (by simp))
      | cons_cons _ behind => exact fresh (behind.subset (by simp))

/-- Of two in a list one is in front of the other. -/
theorem ahead_or_behind (mem : a ∈ list) (mem' : b ∈ list) (apart : a ≠ b) :
    [a, b].Sublist list ∨ [b, a].Sublist list := by
  obtain ⟨front, back, rfl⟩ := List.append_of_mem mem
  rcases List.mem_append.mp mem' with before | here
  · exact Or.inr ((List.singleton_sublist.mpr before).append
      (List.singleton_sublist.mpr List.mem_cons_self))
  · refine Or.inl (List.sublist_append_of_sublist_right (.cons_cons a ?_))
    exact List.singleton_sublist.mpr ((List.mem_cons.mp here).resolve_left (Ne.symm apart))

/-- Who is in front of whom after a member has been put in. -/
theorem ahead_of_inserted (ahead : [a, b].Sublist (front ++ x :: back)) :
    [a, b].Sublist (front ++ back) ∨ a ∈ front ∧ b = x ∨ a = x ∧ b ∈ back := by
  obtain ⟨first, second, both, before, behind⟩ := List.sublist_append_iff.mp ahead
  cases behind with
  | cons _ behind => exact Or.inl (both ▸ before.append behind)
  | @cons_cons second _ _ behind =>
    match first, both, before with
    | [], both, _ =>
      cases both
      exact Or.inr (Or.inr ⟨rfl, List.singleton_sublist.mp behind⟩)
    | [_], both, before =>
      cases both
      exact Or.inr (Or.inl ⟨List.singleton_sublist.mp before, rfl⟩)
    | _ :: _ :: _, both, _ => simp at both

/-- Sorted by level, a list has nobody in front of a higher one, and those of one level in the order
in which they were. -/
theorem ahead_of_sorted (level : α → Priority) (nodup : list.Nodup)
    (ahead : [a, b].Sublist (list.mergeSort fun a b => decide (level b ≤ level a))) :
    level b < level a ∨ level b = level a ∧ [a, b].Sublist list := by
  have perm := List.mergeSort_perm list fun a b => decide (level b ≤ level a)
  have sorted := (Priority.pairwise_sort level list).sublist ahead
  have le : level b ≤ level a := (List.pairwise_cons.mp sorted).1 b (List.mem_singleton.mpr rfl)
  rcases Nat.lt_or_eq_of_le le with lower | same
  · exact Or.inl lower
  have equal : level b = level a := Priority.ext_level same
  refine Or.inr ⟨equal, ?_⟩
  have nodup' := perm.nodup_iff.mpr nodup
  have apart : a ≠ b := by
    rintro rfl
    exact absurd (nodup'.sublist ahead) (by simp)
  have mem : ∀ c ∈ [a, b], c ∈ list := fun c here => perm.mem_iff.mp (ahead.subset here)
  refine (ahead_or_behind (mem a (by simp)) (mem b (by simp)) apart).resolve_right fun behind => ?_
  -- to sort would have left them the other way round
  have kept := List.pair_sublist_mergeSort (Priority.sort_trans level) (Priority.sort_total level)
    (decide_eq_true (Nat.le_of_eq same.symm)) behind
  exact not_ahead_of_behind nodup' ahead kept

end Order

namespace System

/-! ### Lines -/

/-- A line: who stands in it in a state, and at which level. -/
structure Line (α : Type) where
  standing : System → List α
  level : System → α → Priority

namespace Line

variable {α : Type} {line : Line α} {a b : α} {made : Made} {history path : List Made}
  {s s' : System} {P Q : Made → Prop}

/-- What a move does to a line: nothing, or it puts somebody in, in front of a lower one if not at
the end, or it takes out the first after the line has been sorted. -/
inductive Shifts (line : Line α) (made : Made) : Prop where
  | stays (same : line.standing made.after = line.standing made.before)
  | joins {a : α} {front back : List α} (before : line.standing made.before = front ++ back)
      (after : line.standing made.after = front ++ a :: back)
      (lower : ∀ b, back.head? = some b → line.level made.after b < line.level made.after a)
  | leaves {a : α} (sorted : ((line.standing made.before).mergeSort fun a b =>
      decide (line.level made.before b ≤ line.level made.before a)) = a :: line.standing made.after)

/-- In the move `b` comes to the line, where `a` stands. -/
structure Follows (line : Line α) (a b : α) (made : Made) : Prop where
  stands : a ∈ line.standing made.before
  comes : b ∉ line.standing made.before

/-- In the move `a` comes to the line and is put in front of `b`, since somebody there, who is `b` or
stands in front of `b`, is at a lower level. -/
structure CutsIn (line : Line α) (a b : α) (made : Made) : Prop where
  comes : a ∉ line.standing made.before
  ahead : [a, b].Sublist (line.standing made.after)
  lower : ∃ front back, line.standing made.before = front ++ b :: back ∧
    ∃ c ∈ front ++ [b], line.level made.after c < line.level made.after a

/-- In the move, which takes somebody else out, `a` moves up in front of `b`, which is at a lower
level. -/
structure MovesUp (line : Line α) (a b : α) (made : Made) : Prop where
  behind : [b, a].Sublist (line.standing made.before)
  ahead : [a, b].Sublist (line.standing made.after)
  lower : line.level made.before b < line.level made.before a
  takesOut : ∃ c ∈ line.standing made.before, c ∉ line.standing made.after

/-- A move of the path is as `P` says, and `a` and `b` have stood in line ever since. -/
def Since (line : Line α) (path : List Made) (a b : α) (P : Made → Prop) : Prop :=
  ∃ earlier made later, path = earlier ++ made :: later ∧ P made ∧
    ∀ m ∈ made :: later, a ∈ line.standing m.after ∧ b ∈ line.standing m.after

/-- How `a` has come to stand in front of `b`. -/
def Precedes (line : Line α) (a b : α) (made : Made) : Prop :=
  line.Follows a b made ∨ line.CutsIn a b made ∨ line.MovesUp a b made

theorem Since.now (holds : P made) (ahead : [a, b].Sublist (line.standing made.after)) :
    line.Since (history ++ [made]) a b P := by
  refine ⟨history, made, [], rfl, holds, fun m mem => ?_⟩
  rw [List.mem_singleton.mp mem]
  exact ⟨ahead.subset (by simp), ahead.subset (by simp)⟩

theorem Since.extend (since : line.Since history a b P)
    (ahead : [a, b].Sublist (line.standing made.after)) :
    line.Since (history ++ [made]) a b P := by
  obtain ⟨earlier, first, later, rfl, holds, stand⟩ := since
  refine ⟨earlier, first, later ++ [made], by simp, holds, fun m mem => ?_⟩
  rw [← List.cons_append] at mem
  rcases List.mem_append.mp mem with old | new
  · exact stand m old
  · rw [List.mem_singleton.mp new]
    exact ⟨ahead.subset (by simp), ahead.subset (by simp)⟩

theorem Since.imp (since : line.Since path a b P) (implies : ∀ made ∈ path, P made → Q made) :
    line.Since path a b Q := by
  obtain ⟨earlier, made, later, rfl, holds, stand⟩ := since
  exact ⟨earlier, made, later, rfl, implies made (by simp) holds, stand⟩

/-- Who has been in line since some move is there at each later one. -/
theorem stands_before {first next : Made} {between later : List Made}
    (leads : Path first.after (between ++ next :: later) s)
    (stands : ∀ m ∈ first :: (between ++ next :: later), a ∈ line.standing m.after) :
    a ∈ line.standing next.before :=
  leads.cut.1.of_forall_after (P := fun s => a ∈ line.standing s) (stands first List.mem_cons_self)
    fun m mem => stands m (List.mem_cons_of_mem _ (List.mem_append_left _ mem))

/-- Of two in line, not both came after the other. -/
theorem Since.asymm (leads : Path s path s') (since : line.Since path a b (line.Follows a b)) :
    ¬ line.Since path b a (line.Follows b a) := by
  obtain ⟨earlier, made, later, rfl, follows, stand⟩ := since
  rintro ⟨earlier', made', later', same, follows', stand'⟩
  have after := leads.cut.2
  rw [same] at leads
  have after' := leads.cut.2
  rcases List.append_eq_append_iff.mp same with ⟨between, -, both⟩ | ⟨between, -, both⟩
  · cases between with
    | nil =>
      obtain ⟨rfl, -⟩ := List.cons.inj both
      exact follows.comes follows'.stands
    | cons first between =>
      obtain ⟨rfl, rfl⟩ := List.cons.inj both
      exact follows'.comes (stands_before after fun m mem => (stand m mem).1)
  · cases between with
    | nil =>
      obtain ⟨rfl, -⟩ := List.cons.inj both
      exact follows.comes follows'.stands
    | cons first between =>
      obtain ⟨rfl, rfl⟩ := List.cons.inj both
      exact follows.comes (stands_before after' fun m mem => (stand' m mem).1)

/-! ### Moves and paths -/

/-- There is a reason in the past for who stands in front of whom. -/
def Explained (line : Line α) (history : List Made) (s : System) : Prop :=
  ∀ a b, [a, b].Sublist (line.standing s) → line.Since history a b (line.Precedes a b)

/-- A move that brings somebody in front of another is a reason for it. -/
theorem Explained.step (explained : line.Explained history made.before) (shifts : line.Shifts made)
    (nodup : (line.standing made.before).Nodup) (nodup' : (line.standing made.after).Nodup) :
    line.Explained (history ++ [made]) made.after := by
  intro a b ahead
  by_cases old : [a, b].Sublist (line.standing made.before)
  · exact (explained a b old).extend ahead
  refine .now ?_ ahead
  cases shifts with
  | stays same => exact absurd (same ▸ ahead) old
  | @joins x front back before after lower =>
    have fresh : x ∉ front ++ back := by
      rw [after] at nodup'
      exact (List.nodup_middle.mp nodup').notMem
    have inserted := ahead
    rw [after] at inserted
    rw [before] at old
    rcases (ahead_of_inserted inserted).resolve_left old with ⟨mem, rfl⟩ | ⟨rfl, mem⟩
    · refine Or.inl ⟨?_, ?_⟩
      · rw [before]
        exact List.mem_append_left _ mem
      · rwa [before]
    · obtain ⟨between, behind, rfl⟩ := List.append_of_mem mem
      refine Or.inr (Or.inl ⟨by rwa [before], ahead, front ++ between, behind, by simp [before], ?_⟩)
      -- the lower one in front of which it is put is no further back than `b`
      cases between with
      | nil => exact ⟨b, by simp, lower b rfl⟩
      | cons c others => exact ⟨c, by simp, lower c rfl⟩
  | @leaves x sorted =>
    have ahead' : [a, b].Sublist (x :: line.standing made.after) := ahead.cons x
    rw [← sorted] at ahead'
    rcases ahead_of_sorted _ nodup ahead' with lower | ⟨-, same⟩
    · have perm := List.mergeSort_perm (line.standing made.before) fun a b =>
        decide (line.level made.before b ≤ line.level made.before a)
      rw [sorted] at perm
      have mem : ∀ c ∈ [a, b], c ∈ line.standing made.before := fun c here =>
        perm.mem_iff.mp (List.mem_cons_of_mem x (ahead.subset here))
      have apart : a ≠ b := by
        rintro rfl
        exact Nat.lt_irrefl _ lower
      refine Or.inr (Or.inr ⟨?_, ahead, lower, x, perm.mem_iff.mp List.mem_cons_self, ?_⟩)
      · exact (ahead_or_behind (mem a (by simp)) (mem b (by simp)) apart).resolve_left old
      · exact (List.nodup_cons.mp (perm.nodup_iff.mpr nodup)).1
    · exact absurd same old

/-- Along a path from where nobody stands in line there is a reason for every order. -/
theorem explained_of_path (leads : Path s path s') (explained : line.Explained history s)
    (shifts : ∀ made ∈ path, line.Shifts made)
    (nodup : ∀ made ∈ path, (line.standing made.before).Nodup ∧ (line.standing made.after).Nodup) :
    line.Explained (history ++ path) s' := by
  induction leads generalizing history with
  | rest => rwa [List.append_nil]
  | @move s s' s'' move events path allowed ends goesOn ih =>
    have ⟨before, after⟩ := nodup _ List.mem_cons_self
    have step : line.Explained (history ++ [⟨s, move, s'⟩]) s' :=
      Explained.step explained (shifts _ List.mem_cons_self) before after
    rw [List.append_cons]
    exact ih step (fun made later => shifts made (List.mem_cons_of_mem _ later))
      fun made later => nodup made (List.mem_cons_of_mem _ later)

/-- Who leaves is at no lower level than anybody in line, and of those at the same level there is a
reason in the past why it stands in front of them. All others stay. -/
theorem leaves_first (explained : line.Explained history made.before) (shifts : line.Shifts made)
    (nodup : (line.standing made.before).Nodup) (stands : a ∈ line.standing made.before)
    (gone : a ∉ line.standing made.after) :
    ∀ b ∈ line.standing made.before, b ≠ a → b ∈ line.standing made.after ∧
      (line.level made.before b < line.level made.before a ∨
        line.level made.before b = line.level made.before a ∧
          line.Since history a b (line.Precedes a b)) := by
  intro b stands' apart
  cases shifts with
  | stays same => exact absurd (same ▸ stands) gone
  | joins before after =>
    rw [before] at stands
    rw [after] at gone
    exact absurd (List.mem_append.mpr ((List.mem_append.mp stands).imp id (.tail _))) gone
  | @leaves x sorted =>
    have perm := List.mergeSort_perm (line.standing made.before) fun a b =>
      decide (line.level made.before b ≤ line.level made.before a)
    rw [sorted] at perm
    obtain rfl := (List.mem_cons.mp (perm.mem_iff.mpr stands)).resolve_right gone
    have stays := (List.mem_cons.mp (perm.mem_iff.mpr stands')).resolve_left apart
    have ahead : [a, b].Sublist (a :: line.standing made.after) :=
      .cons_cons a (List.singleton_sublist.mpr stays)
    rw [← sorted] at ahead
    refine ⟨stays, (ahead_of_sorted _ nodup ahead).imp id fun both => ⟨both.1, ?_⟩⟩
    exact explained a b both.2

/-! ### Levels that stay -/

/-- Nobody's level changes who stands in line. -/
def Kept (line : Line α) (path : List Made) : Prop :=
  ∀ made ∈ path, ∀ a ∈ line.standing made.before, a ∈ line.standing made.after →
    line.level made.after a = line.level made.before a

theorem level_of_kept (leads : Path s path s') (kept : line.Kept path) (stands : a ∈ line.standing s)
    (stay : ∀ made ∈ path, a ∈ line.standing made.after) : line.level s' a = line.level s a := by
  induction leads with
  | rest => rfl
  | move _ _ _ ih =>
    have here := stay _ List.mem_cons_self
    rw [ih (fun made later => kept made (List.mem_cons_of_mem _ later)) here
      fun made later => stay made (List.mem_cons_of_mem _ later)]
    exact kept _ List.mem_cons_self a stands here

/-- Nobody leaves in the move in which somebody comes. -/
theorem Shifts.mem_of_comes (shifts : line.Shifts made) (comes : a ∉ line.standing made.before)
    (stands : a ∈ line.standing made.after) (mem : b ∈ line.standing made.before) :
    b ∈ line.standing made.after := by
  cases shifts with
  | stays same => rwa [same]
  | joins before after =>
    rw [before] at mem
    rw [after]
    exact List.mem_append.mpr ((List.mem_append.mp mem).imp id (.tail _))
  | @leaves x sorted =>
    have mem' : a ∈ x :: line.standing made.after := List.mem_cons_of_mem x stands
    rw [← sorted, List.mem_mergeSort] at mem'
    exact absurd mem' comes

/-- The higher stand in front of the lower. -/
def Sorted (line : Line α) (s : System) : Prop :=
  (line.standing s).Pairwise fun a b => line.level s b ≤ line.level s a

theorem sorted_of_kept {list : List α}
    (sorted : list.Pairwise fun a b => line.level s b ≤ line.level s a)
    (same : ∀ a ∈ list, line.level s' a = line.level s a) :
    list.Pairwise fun a b => line.level s' b ≤ line.level s' a :=
  sorted.imp_of_mem fun {a b} mem mem' le => by rwa [same a mem, same b mem']

/-- Into a line that is sorted somebody cuts in only in front of a lower one. -/
theorem CutsIn.higher (cuts : line.CutsIn a b made) (shifts : line.Shifts made)
    (sorted : line.Sorted made.before) (kept : line.Kept [made]) :
    line.level made.after b < line.level made.after a := by
  obtain ⟨comes, ahead, front, back, before, c, mem, lower⟩ := cuts
  have stay : ∀ d ∈ line.standing made.before, line.level made.after d = line.level made.before d :=
    fun d here => kept made (List.mem_singleton.mpr rfl) d here
      (shifts.mem_of_comes comes (ahead.subset (by simp)) here)
  have sorted' := sorted_of_kept sorted stay
  rw [before, List.append_cons, List.append_assoc] at sorted'
  rcases List.mem_append.mp mem with inFront | last
  · exact Nat.lt_of_le_of_lt ((List.pairwise_append.mp sorted').2.2 c inFront b (by simp)) lower
  · rwa [List.mem_singleton.mp last] at lower

/-- Where levels stay, of two at one level the first to come stands in front, if nobody cuts in who is
not at a higher level. -/
theorem follows_of_kept (leads : Path s path s') (kept : line.Kept path)
    (since : line.Since path a b (line.Precedes a b)) (same : line.level s' b = line.level s' a)
    (fair : ∀ made ∈ path, line.CutsIn a b made →
      line.level made.after b < line.level made.after a) : line.Since path a b (line.Follows a b) := by
  obtain ⟨earlier, made, later, rfl, holds, stand⟩ := since
  refine ⟨earlier, made, later, rfl, ?_, stand⟩
  have higher : ¬ line.level made.after b < line.level made.after a := by
    intro lower
    have ⟨here, here'⟩ := stand made List.mem_cons_self
    have stay := fun m (mem : m ∈ later) => stand m (List.mem_cons_of_mem _ mem)
    have laterKept : line.Kept later := fun m mem => kept m (by simp [mem])
    rw [← level_of_kept leads.cut.2 laterKept here fun m mem => (stay m mem).1,
      ← level_of_kept leads.cut.2 laterKept here' fun m mem => (stay m mem).2, same] at lower
    exact Nat.lt_irrefl _ lower
  rcases holds with follows | cuts | moves
  · exact follows
  · exact absurd (fair made (by simp) cuts) higher
  · refine absurd ?_ higher
    have level : ∀ c ∈ [a, b], line.level made.after c = line.level made.before c := fun c mem =>
      kept made (by simp) c (moves.behind.subset (by simpa [or_comm] using mem))
        (moves.ahead.subset mem)
    rw [level a (by simp), level b (by simp)]
    exact moves.lower

end Line

end System

end KernelSync
