import BlockProgram.Text.Natural
import Mathlib.Data.List.DropRight
import Mathlib.Tactic

/-!
# Natural order is a total order

The natural order compares the chunks of two labels. A reader who compares the labels
side by side goes through both at once: where both go on with digits, the two runs are
compared as numbers, and anywhere else the two next characters are compared without
regard to case. Both ways agree, because the lower case of a character starts with a
digit only if the character is that digit. Hence the comparison side by side has the
laws of the lexicographic order of chunks, and only equal labels tie.
-/
namespace BlockProgram.Text

/-! ### Digits have no case -/

/-- The bounds of the digits as numerals. -/
lemma isDigit_iff (c : Char) : c.isDigit = true ↔ 48 ≤ c.toNat ∧ c.toNat ≤ 57 :=
  Char.isDigit_iff_toNat

lemma isDigit_ofNat_of_lt {n : Nat} (h : 57 < n) : (Char.ofNat n).isDigit = false := by
  rw [Bool.eq_false_iff, ne_eq, isDigit_iff]
  by_cases hvalid : n.isValidChar
  · have hn : (Char.ofNat n).toNat = n := by
      rw [Char.ofNat, dif_pos hvalid]
      rfl
    omega
  · rw [Char.ofNat, dif_neg hvalid]
    decide

/-- Letters with a case stand above the digits, and so do their lower cases. -/
lemma above_digits_of_mem_caseRuns :
    ∀ run ∈ caseRuns, 57 < run.first ∧ 57 < run.target := by decide +kernel

lemma lower_of_isDigit {c : Char} (h : c.isDigit = true) : lower c = [c] := by
  have hdotted : c ≠ '\u0130' := by
    rintro rfl
    exact absurd h (by decide)
  have hnone : caseRuns.find? (·.covers c.toNat) = none := by
    refine List.find?_eq_none.mpr fun run hrun hcovers => ?_
    have hdigit := (isDigit_iff c).mp h
    have habove := (above_digits_of_mem_caseRuns run hrun).1
    simp only [CaseRun.covers, Bool.and_eq_true, decide_eq_true_eq] at hcovers
    omega
  rw [lower, if_neg hdotted, hnone]

lemma exists_lower_eq_cons {c : Char} (h : c.isDigit = false) :
    ∃ d rest, lower c = d :: rest ∧ d.isDigit = false := by
  unfold lower
  split
  · exact ⟨_, _, rfl, by decide⟩
  · split
    · next run hfind =>
      have habove := (above_digits_of_mem_caseRuns run (List.mem_of_find?_eq_some hfind)).2
      refine ⟨_, _, rfl, isDigit_ofNat_of_lt ?_⟩
      rw [CaseRun.lower]
      omega
    · exact ⟨_, _, rfl, h⟩

/-! ### Runs of digits -/

/-- Runs compare by length and then by code points, zeros in front left out. -/
def runOrder (a b : List Char) : Ordering :=
  let a := a.dropWhile (· == '0')
  let b := b.dropWhile (· == '0')
  (compare a.length b.length).then (compare a b)

lemma compare_toNat (c d : Char) : compare c.toNat d.toNat = compare c d := by
  have hlt : c < d ↔ c.toNat < d.toNat := Iff.rfl
  have heq : c = d ↔ c.toNat = d.toNat := Char.toNat_inj.symm
  rw [Nat.compare_eq_ite_lt]
  change _ = compareOfLessAndEq c d
  simp only [compareOfLessAndEq, hlt, heq]
  split_ifs <;> first | rfl | omega

lemma ofDigitChars_cons (c : Char) (cs : List Char) :
    Nat.ofDigitChars 10 (c :: cs) 0 =
      10 ^ cs.length * (c.toNat - 48) + Nat.ofDigitChars 10 cs 0 := by
  rw [Nat.ofDigitChars_cons, Nat.ofDigitChars_eq_ofDigitChars_zero, Nat.mul_zero, Nat.zero_add]
  rfl

lemma ofDigitChars_lt {cs : List Char} (h : ∀ c ∈ cs, c.isDigit = true) :
    Nat.ofDigitChars 10 cs 0 < 10 ^ cs.length := by
  induction cs with
  | nil => simp
  | cons c cs ih =>
    rw [List.forall_mem_cons, isDigit_iff] at h
    have hlt := ih h.2
    have hdigit : c.toNat - 48 ≤ 9 := by omega
    rw [ofDigitChars_cons, List.length_cons, pow_succ]
    nlinarith

lemma le_ofDigitChars {c : Char} (hc : c.isDigit = true) (hne : c ≠ '0') (cs : List Char) :
    10 ^ cs.length ≤ Nat.ofDigitChars 10 (c :: cs) 0 := by
  have hdigit := (isDigit_iff c).mp hc
  have hzero : c.toNat ≠ 48 := fun h => hne (Char.toNat_inj.mp h)
  rw [ofDigitChars_cons]
  exact (Nat.le_mul_of_pos_right _ (by omega)).trans (Nat.le_add_right _ _)

lemma ofDigitChars_dropWhile_zero (cs : List Char) :
    Nat.ofDigitChars 10 (cs.dropWhile (· == '0')) 0 = Nat.ofDigitChars 10 cs 0 := by
  induction cs with
  | nil => rfl
  | cons c cs ih =>
    rw [List.dropWhile_cons]
    split
    · next hzero =>
      obtain rfl : c = '0' := by simpa using hzero
      rw [ih, Nat.ofDigitChars_cons]
      rfl
    · rfl

/-- A larger leading part outweighs all that can follow it. -/
lemma compare_mul_add {p x y m n : Nat} (hm : m < p) (hn : n < p) :
    compare (p * x + m) (p * y + n) = (compare x y).then (compare m n) := by
  rcases Nat.lt_trichotomy x y with hlt | rfl | hgt
  · rw [Nat.compare_eq_lt.mpr hlt]
    refine Nat.compare_eq_lt.mpr ?_
    nlinarith
  · rw [Nat.compare_eq_eq.mpr rfl]
    simp only [Nat.compare_eq_ite_lt, Nat.add_lt_add_iff_left, Ordering.eq_then]
  · rw [Nat.compare_eq_gt.mpr hgt]
    refine Nat.compare_eq_gt.mpr ?_
    nlinarith

/-- Of two runs of one length that with the larger number comes later by code points. -/
lemma compare_of_length_eq {a b : List Char} (hlen : a.length = b.length)
    (ha : ∀ c ∈ a, c.isDigit = true) (hb : ∀ c ∈ b, c.isDigit = true) :
    compare a b = compare (Nat.ofDigitChars 10 a 0) (Nat.ofDigitChars 10 b 0) := by
  induction a generalizing b with
  | nil =>
    obtain rfl := List.length_eq_zero_iff.mp hlen.symm
    rfl
  | cons c a ih =>
    cases b with
    | nil => cases hlen
    | cons d b =>
      rw [List.length_cons, List.length_cons, Nat.add_right_cancel_iff] at hlen
      rw [List.forall_mem_cons, isDigit_iff] at ha hb
      have hfirst : compare (c.toNat - 48) (d.toNat - 48) = compare c d := by
        rw [← compare_toNat, Nat.compare_eq_ite_lt, Nat.compare_eq_ite_lt]
        split_ifs <;> first | rfl | omega
      rw [List.compare_cons_cons, ih hlen ha.2 hb.2, ofDigitChars_cons, ofDigitChars_cons, hlen,
        compare_mul_add (hlen ▸ ofDigitChars_lt ha.2) (ofDigitChars_lt hb.2), hfirst]

/-- A run without zeros in front has a larger number than every shorter run. -/
lemma ofDigitChars_lt_of_length_lt {a b : List Char} (hlen : a.length < b.length)
    (ha : ∀ c ∈ a, c.isDigit = true) (hb : ∀ c ∈ b, c.isDigit = true)
    (hzero : b.dropWhile (· == '0') = b) :
    Nat.ofDigitChars 10 a 0 < Nat.ofDigitChars 10 b 0 := by
  cases b with
  | nil => cases hlen
  | cons d b =>
    rw [List.length_cons] at hlen
    have hne : d ≠ '0' := by
      have hfirst := List.dropWhile_eq_self_iff.mp hzero (by simp)
      simpa using hfirst
    calc Nat.ofDigitChars 10 a 0 < 10 ^ a.length := ofDigitChars_lt ha
      _ ≤ 10 ^ b.length := Nat.pow_le_pow_right (by omega) (by omega)
      _ ≤ Nat.ofDigitChars 10 (d :: b) 0 := le_ofDigitChars (hb d (by simp)) hne b

/-- Runs compare as the numbers that they write. -/
theorem runOrder_eq {a b : List Char} (ha : ∀ c ∈ a, c.isDigit = true)
    (hb : ∀ c ∈ b, c.isDigit = true) :
    runOrder a b = compare (Nat.ofDigitChars 10 a 0) (Nat.ofDigitChars 10 b 0) := by
  unfold runOrder
  dsimp only
  rw [← ofDigitChars_dropWhile_zero a, ← ofDigitChars_dropWhile_zero b]
  replace ha : ∀ c ∈ a.dropWhile (· == '0'), c.isDigit = true :=
    fun c hc => ha c ((List.dropWhile_sublist _).subset hc)
  replace hb : ∀ c ∈ b.dropWhile (· == '0'), c.isDigit = true :=
    fun c hc => hb c ((List.dropWhile_sublist _).subset hc)
  have hazero : (a.dropWhile (· == '0')).dropWhile (· == '0') = a.dropWhile (· == '0') :=
    List.dropWhile_idempotent _ _
  have hbzero : (b.dropWhile (· == '0')).dropWhile (· == '0') = b.dropWhile (· == '0') :=
    List.dropWhile_idempotent _ _
  generalize a.dropWhile (· == '0') = a at ha hazero ⊢
  generalize b.dropWhile (· == '0') = b at hb hbzero ⊢
  rcases Nat.lt_trichotomy a.length b.length with hlt | heq | hgt
  · rw [Nat.compare_eq_lt.mpr hlt]
    exact (Nat.compare_eq_lt.mpr (ofDigitChars_lt_of_length_lt hlt ha hb hbzero)).symm
  · rw [Nat.compare_eq_eq.mpr heq]
    exact compare_of_length_eq heq ha hb
  · rw [Nat.compare_eq_gt.mpr hgt]
    exact (Nat.compare_eq_gt.mpr (ofDigitChars_lt_of_length_lt hgt hb ha hazero)).symm

/-! ### Side by side -/

/-- Two labels compared from the left: where both go on with digits, by the runs of
these, and anywhere else by the lower cases of the next two characters. The first
difference decides, and of labels without one the shorter comes first. -/
def sideBySide : List Char → List Char → Ordering
  | [], [] => .eq
  | [], _ :: _ => .lt
  | _ :: _, [] => .gt
  | c :: cs, d :: ds =>
    if c.isDigit && d.isDigit then
      (runOrder (c :: cs.takeWhile Char.isDigit) (d :: ds.takeWhile Char.isDigit)).then
        (sideBySide (cs.dropWhile Char.isDigit) (ds.dropWhile Char.isDigit))
    else (compare (lower c) (lower d)).then (sideBySide cs ds)
termination_by a => a.length
decreasing_by
  · exact Nat.lt_succ_of_le (List.dropWhile_sublist _).length_le
  · exact Nat.lt_succ_self _

lemma chunksFrom_some (n : Nat) (cs : List Char) :
    chunksFrom (some n) cs =
      .number (Nat.ofDigitChars 10 (cs.takeWhile Char.isDigit) n) ::
        chunksFrom none (cs.dropWhile Char.isDigit) := by
  induction cs generalizing n with
  | nil => rfl
  | cons c cs ih =>
    rw [chunksFrom]
    by_cases hc : c.isDigit = true
    · rw [if_pos hc, ih, List.takeWhile_cons_of_pos hc, List.dropWhile_cons_of_pos hc,
        Nat.ofDigitChars_cons, Option.getD_some, Nat.mul_comm, digitValue]
    · rw [if_neg hc, List.takeWhile_cons_of_neg hc, List.dropWhile_cons_of_neg hc, chunksFrom,
        if_neg hc]
      rfl

lemma chunksFrom_digit {c : Char} (hc : c.isDigit = true) (cs : List Char) :
    chunksFrom none (c :: cs) =
      .number (Nat.ofDigitChars 10 (c :: cs.takeWhile Char.isDigit) 0) ::
        chunksFrom none (cs.dropWhile Char.isDigit) := by
  rw [chunksFrom, if_pos hc, chunksFrom_some, Nat.ofDigitChars_cons]
  rfl

lemma chunksFrom_letter {c : Char} (hc : c.isDigit = false) (cs : List Char) :
    chunksFrom none (c :: cs) = .letter c :: chunksFrom none cs := by
  rw [chunksFrom, if_neg (by simp [hc])]
  rfl

/-! ### Numbers and letters -/

instance : Std.TransCmp Chunk.order := inferInstanceAs (Std.TransCmp (compareLex _ _))

lemma Chunk.order_eq (x y : Chunk) :
    Chunk.order x y = (compare x.face y.face).then (compare x.value y.value) := rfl

/-- All digits stand on the same side of a letter. -/
lemma compare_digit_lower {c d e : Char} (hc : c.isDigit = true) (hd : d.isDigit = true)
    (he : e.isDigit = false) :
    compare [c] (lower e) ≠ .eq ∧ compare [c] (lower e) = compare [d] (lower e) := by
  obtain ⟨l, rest, hlower, hl⟩ := exists_lower_eq_cons he
  rw [isDigit_iff] at hc hd
  rw [Bool.eq_false_iff, ne_eq, isDigit_iff] at hl
  rw [hlower, List.compare_cons_cons, List.compare_cons_cons, ← compare_toNat, ← compare_toNat]
  rcases Nat.lt_or_ge l.toNat 48 with hlt | hge
  · rw [Nat.compare_eq_gt.mpr (by omega), Nat.compare_eq_gt.mpr (by omega)]
    simp
  · rw [Nat.compare_eq_lt.mpr (by omega), Nat.compare_eq_lt.mpr (by omega)]
    simp

/-- A number compares with a letter as each of its digits does. -/
lemma order_number_letter (n : Nat) {c d : Char} (hc : c.isDigit = true) (hd : d.isDigit = false) :
    compare (lower c) (lower d) ≠ .eq ∧
      Chunk.order (.number n) (.letter d) = compare (lower c) (lower d) := by
  obtain ⟨hne, hzero⟩ := compare_digit_lower hc (d := '0') (by decide) hd
  have hface : compare (Chunk.number n).face (Chunk.letter d).face =
      compare (lower c) (lower d) := by
    rw [lower_of_isDigit hc, hzero]
    rfl
  rw [← lower_of_isDigit hc] at hne
  refine ⟨hne, ?_⟩
  rw [Chunk.order_eq, hface]
  cases ho : compare (lower c) (lower d) with
  | lt => rfl
  | eq => exact absurd ho hne
  | gt => rfl

lemma order_letter_number (n : Nat) {c d : Char} (hc : c.isDigit = false) (hd : d.isDigit = true) :
    compare (lower c) (lower d) ≠ .eq ∧
      Chunk.order (.letter c) (.number n) = compare (lower c) (lower d) := by
  obtain ⟨hne, horder⟩ := order_number_letter n hd hc
  have hswap : compare (lower c) (lower d) = (compare (lower d) (lower c)).swap :=
    Std.OrientedCmp.eq_swap
  refine ⟨by simpa [hswap] using hne, ?_⟩
  rw [hswap, ← horder]
  exact Std.OrientedCmp.eq_swap

lemma order_letter_letter (c d : Char) :
    Chunk.order (.letter c) (.letter d) = compare (lower c) (lower d) := by
  rw [Chunk.order_eq]
  exact Ordering.then_eq

lemma exists_chunksFrom_eq_cons (c : Char) (cs : List Char) :
    ∃ x rest, chunksFrom none (c :: cs) = x :: rest := by
  cases hc : c.isDigit with
  | true => exact ⟨_, _, chunksFrom_digit hc cs⟩
  | false => exact ⟨_, _, chunksFrom_letter hc cs⟩

/-- Chunk by chunk, the labels are compared side by side. -/
theorem compareLex_chunksFrom (a b : List Char) :
    List.compareLex Chunk.order (chunksFrom none a) (chunksFrom none b) = sideBySide a b := by
  fun_induction sideBySide a b with
  | case1 => rfl
  | case2 d ds =>
    obtain ⟨x, rest, hchunks⟩ := exists_chunksFrom_eq_cons d ds
    rw [hchunks]
    rfl
  | case3 c cs =>
    obtain ⟨x, rest, hchunks⟩ := exists_chunksFrom_eq_cons c cs
    rw [hchunks]
    rfl
  | case4 c cs d ds hboth ih =>
    rw [Bool.and_eq_true] at hboth
    have hrun {e : Char} (he : e.isDigit = true) (es : List Char) :
        ∀ l ∈ e :: es.takeWhile Char.isDigit, l.isDigit = true :=
      List.forall_mem_cons.mpr ⟨he, fun l hl => List.mem_takeWhile_imp hl⟩
    rw [chunksFrom_digit hboth.1, chunksFrom_digit hboth.2, List.compareLex_cons_cons, ih,
      runOrder_eq (hrun hboth.1 cs) (hrun hboth.2 ds)]
    rfl
  | case5 c cs d ds hnot ih =>
    rw [Bool.and_eq_true] at hnot
    have hdecided {o : Ordering} (h : o ≠ .eq) (o' o'' : Ordering) : o.then o' = o.then o'' := by
      cases o <;> simp_all
    cases hc : c.isDigit with
    | true =>
      have hd : d.isDigit = false := by simpa [hc] using hnot
      rw [chunksFrom_digit hc, chunksFrom_letter hd, List.compareLex_cons_cons]
      obtain ⟨hne, horder⟩ := order_number_letter _ hc hd
      rw [horder]
      exact hdecided hne _ _
    | false =>
      rw [chunksFrom_letter hc]
      cases hd : d.isDigit with
      | true =>
        rw [chunksFrom_digit hd, List.compareLex_cons_cons]
        obtain ⟨hne, horder⟩ := order_letter_number _ hc hd
        rw [horder]
        exact hdecided hne _ _
      | false => rw [chunksFrom_letter hd, List.compareLex_cons_cons, order_letter_letter, ih]

/-! ### The laws -/

theorem naturalOrder_eq (a b : String) :
    naturalOrder a b = (sideBySide a.toList b.toList).then (compare a b) := by
  rw [naturalOrder, compareLex, chunks, chunks, compareLex_chunksFrom]

instance : Std.TransCmp naturalOrder := by
  have hlists : Std.TransCmp (List.compareLex Chunk.order) := inferInstance
  have hchunks : Std.TransCmp fun a b => List.compareLex Chunk.order (chunks a) (chunks b) :=
    { eq_swap := hlists.eq_swap, isLE_trans := hlists.isLE_trans }
  exact inferInstanceAs (Std.TransCmp (compareLex _ _))

lemma naturalLe_trans {a b c : String} (hab : naturalLe a b = true) (hbc : naturalLe b c = true) :
    naturalLe a c = true := by
  simp only [naturalLe, bne_iff_ne, Ordering.ne_gt_iff_isLE] at hab hbc ⊢
  exact Std.TransCmp.isLE_trans hab hbc

lemma naturalLe_total (a b : String) : (naturalLe a b || naturalLe b a) = true := by
  have hswap : naturalOrder b a = (naturalOrder a b).swap := Std.OrientedCmp.eq_swap
  simp only [naturalLe, hswap]
  cases naturalOrder a b <;> rfl

/-- The natural order compares labels side by side and then by code points, and it is a
total order: it turns round with its arguments, ties only equal labels, and is transitive. -/
theorem naturalOrder_total_order (a b c : String) :
    naturalOrder a b = (sideBySide a.toList b.toList).then (compare a b) ∧
      naturalOrder a b = (naturalOrder b a).swap ∧
      (naturalOrder a b = .eq ↔ a = b) ∧
      (naturalOrder a b ≠ .gt → naturalOrder b c ≠ .gt → naturalOrder a c ≠ .gt) := by
  refine ⟨naturalOrder_eq a b, Std.OrientedCmp.eq_swap, ⟨fun h => ?_, ?_⟩, fun hab hbc => ?_⟩
  · rw [naturalOrder_eq, Ordering.then_eq_eq] at h
    exact Std.LawfulEqCmp.eq_of_compare h.2
  · rintro rfl
    exact Std.ReflCmp.compare_self
  · rw [ne_eq, Ordering.ne_gt_iff_isLE] at hab hbc ⊢
    exact Std.TransCmp.isLE_trans hab hbc

theorem naturalOrder_motors :
    naturalOrder "Motor_2" "motor_02" ≠ .gt ∧ naturalOrder "motor_02" "MOTOR_10a" ≠ .gt ∧
      naturalOrder "Motor_2" "MOTOR_10a" ≠ .gt := by
  have hfirst : naturalOrder "Motor_2" "motor_02" ≠ .gt := by decide +kernel
  have hsecond : naturalOrder "motor_02" "MOTOR_10a" ≠ .gt := by decide +kernel
  obtain ⟨-, -, -, htrans⟩ := naturalOrder_total_order "Motor_2" "motor_02" "MOTOR_10a"
  exact ⟨hfirst, hsecond, htrans hfirst hsecond⟩

end BlockProgram.Text
