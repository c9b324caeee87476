import BlockProgram.Proofs.Numbering
import BlockProgram.Proofs.Ordering

/-!
# Runs of digits decide by their numbers

Two labels that are the same up to a run of digits, and there go on with runs of different
numbers, compare as these numbers. What stands before the runs may hold runs of its own, as
long as it does not end in one, and what stands behind them has no say. The numbers may be
of any size: they are never computed when labels are compared side by side, only the runs
are measured and read from the left.
-/
namespace BlockProgram.Text

/-! ### Chunks of parts -/

/-- A run of digits does not go on behind a letter. -/
lemma chunksFrom_append_letter (run : Option Nat) (cs : List Char) {c : Char}
    (hc : c.isDigit = false) (rest : List Char) :
    chunksFrom run (cs ++ c :: rest) = chunksFrom run (cs ++ [c]) ++ chunksFrom none rest := by
  induction cs generalizing run with
  | nil => simp [chunksFrom, hc]
  | cons d cs ih =>
    simp only [List.cons_append, chunksFrom]
    split
    · exact ih _
    · rw [ih, List.append_assoc, List.cons_append]

/-- A text is cut into chunks part by part if the first part does not end in a digit. -/
lemma chunksFrom_append {cs : List Char} (hcs : ∀ c ∈ cs.getLast?, c.isDigit = false)
    (rest : List Char) :
    chunksFrom none (cs ++ rest) = chunksFrom none cs ++ chunksFrom none rest := by
  cases cs using List.reverseRecOn with
  | nil => rfl
  | append_singleton cs c =>
    rw [List.append_assoc, List.singleton_append]
    exact chunksFrom_append_letter none cs (hcs c (by simp)) rest

/-- A run of digits is one chunk, which ends with the run. -/
lemma chunksFrom_run_append {digits rest : List Char} (hne : digits ≠ [])
    (hdigits : ∀ c ∈ digits, c.isDigit = true) (hrest : ∀ c ∈ rest.head?, c.isDigit = false) :
    chunksFrom none (digits ++ rest) =
      .number (Nat.ofDigitChars 10 digits 0) :: chunksFrom none rest := by
  have hstop : rest.takeWhile Char.isDigit = [] ∧ rest.dropWhile Char.isDigit = rest := by
    cases rest with
    | nil => exact ⟨rfl, rfl⟩
    | cons c rest => simp [hrest c (by simp)]
  obtain ⟨d, digits, rfl⟩ := List.exists_cons_of_ne_nil hne
  rw [List.forall_mem_cons] at hdigits
  rw [List.cons_append, chunksFrom_digit hdigits.1, List.takeWhile_append_of_pos hdigits.2,
    List.dropWhile_append_of_pos hdigits.2, hstop.1, hstop.2, List.append_nil]

/-! ### Comparing behind a common part -/

lemma compareLex_append_left {α : Type} {cmp : α → α → Ordering} [Std.ReflCmp cmp]
    (common a b : List α) :
    List.compareLex cmp (common ++ a) (common ++ b) = List.compareLex cmp a b := by
  induction common with
  | nil => rfl
  | cons x common ih =>
    have hself : cmp x x = .eq := Std.ReflCmp.compare_self
    rw [List.cons_append, List.cons_append, List.compareLex_cons_cons, hself, ih]
    rfl

lemma order_number_number (a b : Nat) : Chunk.order (.number a) (.number b) = compare a b := by
  rw [Chunk.order_eq]
  rfl

/-- After a common part that does not end in a digit, two runs of different numbers decide
the order. They are compared by length and then by code points, zeros in front left out, and
this is to compare the numbers. -/
theorem naturalOrder_by_number {u v w m n : String}
    (hu : ∀ c ∈ u.toList.getLast?, c.isDigit = false) (hm : IsNumeral m) (hn : IsNumeral n)
    (hv : ∀ c ∈ v.toList.head?, c.isDigit = false) (hw : ∀ c ∈ w.toList.head?, c.isDigit = false)
    (hne : Nat.ofDigitChars 10 m.toList 0 ≠ Nat.ofDigitChars 10 n.toList 0) :
    naturalOrder (u ++ m ++ v) (u ++ n ++ w) = runOrder m.toList n.toList ∧
      runOrder m.toList n.toList =
        compare (Nat.ofDigitChars 10 m.toList 0) (Nat.ofDigitChars 10 n.toList 0) := by
  have hrun := runOrder_eq hm.2 hn.2
  refine ⟨?_, hrun⟩
  have hchunks {digits rest : String} (hdigits : IsNumeral digits)
      (hrest : ∀ c ∈ rest.toList.head?, c.isDigit = false) :
      chunks (u ++ digits ++ rest) = chunks u ++
        .number (Nat.ofDigitChars 10 digits.toList 0) :: chunks rest := by
    have hnil : digits.toList ≠ [] := by simpa using hdigits.1
    rw [chunks, String.toList_append, String.toList_append, List.append_assoc,
      chunksFrom_append hu, chunksFrom_run_append hnil hdigits.2 hrest, chunks, chunks]
  have hdecided : compare (Nat.ofDigitChars 10 m.toList 0) (Nat.ofDigitChars 10 n.toList 0) ≠
      .eq := by rwa [ne_eq, Nat.compare_eq_eq]
  rw [naturalOrder, compareLex, hchunks hm hv, hchunks hn hw, compareLex_append_left,
    List.compareLex_cons_cons, order_number_number, hrun]
  cases horder : compare (Nat.ofDigitChars 10 m.toList 0) (Nat.ofDigitChars 10 n.toList 0) with
  | lt => rfl
  | eq => exact absurd horder hdecided
  | gt => rfl

/-- The common part has a run of its own, and the larger number is the shorter text. -/
theorem naturalOrder_large_numbers :
    naturalOrder ("Bus 07.port_" ++ "0018446744073709551615" ++ "x")
        ("Bus 07.port_" ++ "18446744073709551616" ++ "") = .lt ∧
      Nat.ofDigitChars 10 "0018446744073709551615".toList 0 = 18446744073709551615 ∧
      Nat.ofDigitChars 10 "18446744073709551616".toList 0 = 18446744073709551616 := by
  have hnumeral {s : String} (hne : s ≠ "") (hall : s.toList.all Char.isDigit = true) :
      IsNumeral s := ⟨hne, List.all_eq_true.mp hall⟩
  have hfirst : IsNumeral "0018446744073709551615" := hnumeral (by decide) (by decide +kernel)
  have hsecond : IsNumeral "18446744073709551616" := hnumeral (by decide) (by decide +kernel)
  obtain ⟨horder, hvalue⟩ := naturalOrder_by_number (u := "Bus 07.port_") (v := "x") (w := "")
    (by simp) hfirst hsecond (by simp) (by simp) (by decide +kernel)
  refine ⟨(horder.trans hvalue).trans ?_, by decide +kernel, by decide +kernel⟩
  decide +kernel

end BlockProgram.Text
