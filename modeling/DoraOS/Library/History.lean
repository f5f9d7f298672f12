import Mathlib.Data.List.Induction

/-! Properties of a growing record: each entry is judged together with the
entries before it. -/
namespace History

universe u

variable {Entry : Type u} {p : List Entry → Entry → Prop} {past entries : List Entry} {l : Entry}

/-- Every entry satisfies `p` with the record in front of it. -/
def Always (p : List Entry → Entry → Prop) (past : List Entry) : Prop :=
  ∀ before l after, past = before ++ l :: after → p before l

theorem always_nil : Always p [] := by
  intro before l after hSplit
  simp at hSplit

theorem Always.snoc (h : Always p past) (hLast : p past l) : Always p (past ++ [l]) := by
  intro before l' after hSplit
  rcases List.append_eq_append_iff.mp hSplit with ⟨mid, hBefore, hTail⟩ | ⟨mid, hPast, hTail⟩
  · cases mid with
    | nil =>
        simp only [List.nil_append, List.cons.injEq] at hTail
        rw [hBefore, List.append_nil, ← hTail.1]
        exact hLast
    | cons a rest => simp at hTail
  · cases mid with
    | nil =>
        simp only [List.nil_append, List.cons.injEq] at hTail
        rw [List.append_nil] at hPast
        rw [← hPast, hTail.1]
        exact hLast
    | cons a rest =>
        simp only [List.cons_append, List.cons.injEq] at hTail
        rw [← hTail.1] at hPast
        exact h before l' rest hPast

/-- Entries that satisfy `p` whatever came before them. -/
theorem Always.append (h : Always p past) (hAll : ∀ l ∈ entries, ∀ before, p before l) :
    Always p (past ++ entries) := by
  induction entries using List.reverseRecOn with
  | nil => simpa using h
  | append_singleton rest l ih =>
      rw [← List.append_assoc]
      refine (ih fun l' hl' => hAll l' ?_).snoc (hAll l ?_ _)
      · exact List.mem_append_left _ hl'
      · exact List.mem_append_right _ (List.mem_singleton_self l)

section LastPlace

variable {test : Entry → Bool}

/-- The place of the last entry that passes a test, counted from one; it is 0 if there
is none. -/
def lastPlace (test : Entry → Bool) (past : List Entry) : Nat :=
  past.length - past.reverse.findIdx test

theorem lastPlace_le (test : Entry → Bool) (past : List Entry) :
    lastPlace test past ≤ past.length := Nat.sub_le _ _

theorem lastPlace_append (h : ∀ l ∈ entries, test l = false) :
    lastPlace test (past ++ entries) = lastPlace test past := by
  have hNone : ¬ ∃ l ∈ entries.reverse, test l = true := by
    rintro ⟨l, hMem, hTest⟩
    rw [h l (List.mem_reverse.mp hMem)] at hTest
    cases hTest
  rw [lastPlace, List.reverse_append, List.findIdx_append,
    if_neg (mt List.findIdx_lt_length.mp hNone), lastPlace, List.length_append,
    List.length_reverse]
  omega

theorem lastPlace_snoc_of_false (h : test l = false) (past : List Entry) :
    lastPlace test (past ++ [l]) = lastPlace test past :=
  lastPlace_append (List.forall_mem_singleton.mpr h)

theorem lastPlace_snoc (h : test l = true) (past : List Entry) :
    lastPlace test (past ++ [l]) = past.length + 1 := by
  simp [lastPlace, List.findIdx_cons, h]

end LastPlace

end History
