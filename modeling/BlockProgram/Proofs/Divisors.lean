import BlockProgram.Proofs.Expressions

/-!
# Products that divide

The text of an expression means the expression itself unless a product divides
somewhere. If one does, and no name occurs twice, the two can be told apart: there
are values for the names that give both a value, and not the same one.
-/
namespace BlockProgram.Expression

theorem heard_eq_self {t : Expression} (h : ¬ t.DividesByProduct) : t.heard = t := by
  induction t with
  | var name => rfl
  | binary op l r ihl ihr =>
    simp only [DividesByProduct, not_or, not_and] at h
    obtain ⟨hdivisor, hl, hr⟩ := h
    rw [heard_binary hdivisor, ihl hl, ihr hr]

/-! ### Only the names of an expression matter -/

lemma eval_congr {σ τ : String → ℚ} {t : Expression} (h : ∀ n ∈ t.names, σ n = τ n) :
    t.eval σ = t.eval τ := by
  induction t with
  | var name => exact congrArg some (h name (by simp [names]))
  | binary op l r ihl ihr =>
    have hl := ihl fun n hn => h n (by simp [names, hn])
    have hr := ihr fun n hn => h n (by simp [names, hn])
    simp only [eval, hl, hr]

lemma names_put (x : Option Expression) (e : Expression) :
    (put x e).names = x.elim [] names ++ e.names := by
  cases x <;> rfl

lemma names_hear (x : Option Expression) (t : Expression) :
    (t.hear x).names = x.elim [] names ++ t.names := by
  induction t generalizing x with
  | var name => exact names_put x _
  | binary op l r ihl ihr =>
    cases op with
    | mul => simp [hear, names, ihl, ihr]
    | div => simp [hear, names, names_put, ihl, ihr]
    | add => simp [hear, names, names_put, ihl, ihr]
    | sub => simp [hear, names, names_put, ihl, ihr]

@[simp] lemma names_heard (t : Expression) : t.heard.names = t.names := by
  simp [heard, names_hear]

/-- The factors of a product are all heard as one, so that dividing by its text
changes no dividend. -/
def Neutral (σ : String → ℚ) : Expression → Prop
  | binary .mul l r => l.Neutral σ ∧ r.heard.eval σ = some 1
  | t => t.heard.eval σ = some 1

lemma neutral_of_ne_multiplication {σ : String → ℚ} {t : Expression}
    (ht : t.precedence ≠ .multiplication) : t.Neutral σ ↔ t.heard.eval σ = some 1 := by
  cases t with
  | var name => rfl
  | binary op l r =>
    cases op with
    | mul => exact absurd rfl ht
    | div => rfl
    | add => rfl
    | sub => rfl

lemma eval_hear_of_neutral {σ : String → ℚ} {t : Expression} (h : t.Neutral σ)
    (x : Expression) : (t.hear (some x)).eval σ = x.eval σ := by
  have hplain {t : Expression} (ht : t.precedence ≠ .multiplication) (h : t.Neutral σ) :
      (t.hear (some x)).eval σ = x.eval σ := by
    rw [neutral_of_ne_multiplication ht] at h
    rw [hear_some_of_ne_multiplication ht]
    cases hx : x.eval σ <;> simp [eval, hx, h, Operator.apply]
  induction t with
  | var name => exact hplain (by simp [precedence]) h
  | binary op l r ihl _ =>
    cases op with
    | mul =>
      have hl := ihl h.1
      have hr : (r.hear none).eval σ = some 1 := h.2
      cases hx : x.eval σ <;> simp [hear, eval, hl, hr, hx, Operator.apply]
    | div => exact hplain (by simp [precedence, Operator.precedence]) h
    | add => exact hplain (by simp [precedence, Operator.precedence]) h
    | sub => exact hplain (by simp [precedence, Operator.precedence]) h

lemma neutral_congr {σ τ : String → ℚ} {t : Expression} (h : ∀ n ∈ t.names, σ n = τ n)
    (ht : t.Neutral σ) : t.Neutral τ := by
  have hheard {e : Expression} (he : ∀ n ∈ e.names, σ n = τ n) :
      e.heard.eval σ = e.heard.eval τ := eval_congr (by simpa using he)
  induction t with
  | var name => exact (hheard h).symm.trans ht
  | binary op l r ihl _ =>
    cases op with
    | mul =>
      have hr : r.heard.eval σ = r.heard.eval τ := hheard fun n hn => h n (by simp [names, hn])
      exact ⟨ihl (fun n hn => h n (by simp [names, hn])) ht.1, hr.symm.trans ht.2⟩
    | div => exact (hheard h).symm.trans ht
    | add => exact (hheard h).symm.trans ht
    | sub => exact (hheard h).symm.trans ht

lemma exists_agreeing {xs ys : List String} (h : xs.Disjoint ys) (σ τ : String → ℚ) :
    ∃ υ : String → ℚ, (∀ n ∈ xs, σ n = υ n) ∧ ∀ n ∈ ys, τ n = υ n := by
  refine ⟨fun n => if n ∈ xs then σ n else τ n, fun n hn => (if_pos hn).symm, fun n hn => ?_⟩
  exact (if_neg fun hmem => h hmem hn).symm

/-! ### Values that can be shown -/

/-- The values of an expression and of what is heard for it. -/
structure Shows (σ : String → ℚ) (t : Expression) (p q : ℚ) : Prop where
  value : t.eval σ = some p
  heard : t.heard.eval σ = some q

namespace Shows

variable {σ τ : String → ℚ} {l r t : Expression} {p q p' q' : ℚ}

lemma congr (h : Shows σ t p q) (hσ : ∀ n ∈ t.names, σ n = τ n) : Shows τ t p q where
  value := (eval_congr hσ).symm.trans h.value
  heard := (eval_congr (by simpa using hσ)).symm.trans h.heard

/-- Expressions without a common name show their values together. -/
lemma both (hl : Shows σ l p q) (hr : Shows τ r p' q') (hdisjoint : l.names.Disjoint r.names) :
    ∃ υ, Shows υ l p q ∧ Shows υ r p' q' ∧ (l.Neutral σ → l.Neutral υ) ∧
      (r.Neutral τ → r.Neutral υ) := by
  obtain ⟨υ, hleft, hright⟩ := exists_agreeing hdisjoint σ τ
  exact ⟨υ, hl.congr hleft, hr.congr hright, neutral_congr hleft, neutral_congr hright⟩

lemma binary {op : Operator} {v v' : ℚ} (hl : Shows σ l p q) (hr : Shows σ r p' q')
    (hproduct : op = .div → r.precedence ≠ .multiplication) (hv : op.apply p p' = some v)
    (hv' : op.apply q q' = some v') : Shows σ (.binary op l r) v v' where
  value := by simp [eval, hl.value, hr.value, hv]
  heard := by
    rw [heard_binary hproduct]
    simp [eval, hl.heard, hr.heard, hv']

lemma div_neutral (hl : Shows σ l p q) (hr : Shows σ r 1 1) (hneutral : r.Neutral σ) :
    Shows σ (.binary .div l r) p q where
  value := by simp [eval, hl.value, hr.value, Operator.apply]
  heard := (eval_hear_of_neutral hneutral l.heard).trans hl.heard

/-- Of a product that divides, the second factor multiplies. -/
lemma div_mul {s : Expression} (hl : Shows σ l 1 1) (hr : Shows σ r 1 1)
    (hneutral : r.Neutral σ) (hs : Shows σ s 2 2) :
    Shows σ (.binary .div l (.binary .mul r s)) (1 / 2) 2 where
  value := by simp [eval, hl.value, hr.value, hs.value, Operator.apply]
  heard := by
    have hheard : (Expression.binary .div l (.binary .mul r s)).heard =
        .binary .mul (r.hear (some l.heard)) s.heard := rfl
    simp [hheard, eval, eval_hear_of_neutral hneutral, hl.heard, hs.heard, Operator.apply]

end Shows

/-- Every value can be shown, and one with all factors neutral. -/
lemma exists_shows {t : Expression} (hnodup : t.names.Nodup) (q : ℚ) :
    ∃ σ, Shows σ t q q ∧ (q = 1 → t.Neutral σ) := by
  induction t generalizing q with
  | var name => exact ⟨fun _ => q, ⟨rfl, rfl⟩, fun hq => congrArg some hq⟩
  | binary op l r ihl ihr =>
    obtain ⟨hl, hr, hdisjoint⟩ := List.nodup_append'.mp hnodup
    -- the left operand takes the value and the right one keeps it, except in sums
    have hkeep : ∃ σ, Shows σ l q q ∧ Shows σ r 1 1 ∧ (q = 1 → l.Neutral σ) ∧ r.Neutral σ := by
      obtain ⟨σ, hσ, hσl⟩ := ihl hl q
      obtain ⟨τ, hτ, hτr⟩ := ihr hr 1
      obtain ⟨υ, hυl, hυr, hnl, hnr⟩ := hσ.both hτ hdisjoint
      exact ⟨υ, hυl, hυr, fun hq => hnl (hσl hq), hnr (hτr rfl)⟩
    have hsplit (a b : ℚ) : ∃ σ, Shows σ l a a ∧ Shows σ r b b := by
      obtain ⟨σ, hσ, -⟩ := ihl hl a
      obtain ⟨τ, hτ, -⟩ := ihr hr b
      obtain ⟨υ, hυl, hυr, -, -⟩ := hσ.both hτ hdisjoint
      exact ⟨υ, hυl, hυr⟩
    cases op with
    | mul =>
      obtain ⟨σ, hσl, hσr, hnl, hnr⟩ := hkeep
      exact ⟨σ, hσl.binary hσr (by simp) (by simp [Operator.apply]) (by simp [Operator.apply]),
        fun hq => ⟨hnl hq, hσr.heard⟩⟩
    | div =>
      obtain ⟨σ, hσl, hσr, hnl, hnr⟩ := hkeep
      have hshows := hσl.div_neutral hσr hnr
      exact ⟨σ, hshows, fun hq => hshows.heard.trans (congrArg some hq)⟩
    | add =>
      obtain ⟨σ, hσl, hσr⟩ := hsplit q 0
      have hshows : Shows σ (binary .add l r) q q :=
        hσl.binary hσr (by simp) (by simp [Operator.apply]) (by simp [Operator.apply])
      exact ⟨σ, hshows, fun hq => hshows.heard.trans (congrArg some hq)⟩
    | sub =>
      obtain ⟨σ, hσl, hσr⟩ := hsplit q 0
      have hshows : Shows σ (binary .sub l r) q q :=
        hσl.binary hσr (by simp) (by simp [Operator.apply]) (by simp [Operator.apply])
      exact ⟨σ, hshows, fun hq => hshows.heard.trans (congrArg some hq)⟩

/-- The expression and what is heard for it have different values, neither of them
zero, so that they also differ as divisors. -/
def Apart (σ : String → ℚ) (t : Expression) : Prop :=
  ∃ p q, Shows σ t p q ∧ p ≠ q ∧ p ≠ 0 ∧ q ≠ 0

/-- A number whose sums and differences with two others are not zero. -/
lemma exists_add_ne_zero (p q : ℚ) : ∃ c : ℚ, c + p ≠ 0 ∧ c + q ≠ 0 ∧ c - p ≠ 0 ∧ c - q ≠ 0 := by
  have hp := abs_nonneg p
  have hq := abs_nonneg q
  have hp' := neg_abs_le p
  have hq' := neg_abs_le q
  have hp'' := le_abs_self p
  have hq'' := le_abs_self q
  refine ⟨|p| + |q| + 1, ?_, ?_, ?_, ?_⟩ <;> intro h <;> linarith

lemma Apart.binary_left {σ : String → ℚ} {l r : Expression} (hl : l.Apart σ)
    (hr : r.names.Nodup) (hdisjoint : l.names.Disjoint r.names) (op : Operator) :
    ∃ τ, (binary op l r).Apart τ := by
  obtain ⟨p, q, hshows, hne, hp, hq⟩ := hl
  obtain ⟨c, hcp, hcq, hcp', hcq'⟩ := exists_add_ne_zero p q
  have hboth (d : ℚ) : ∃ υ, Shows υ l p q ∧ Shows υ r d d ∧ (d = 1 → r.Neutral υ) := by
    obtain ⟨τ, hτ, hneutral⟩ := exists_shows hr d
    obtain ⟨υ, hυl, hυr, -, hn⟩ := hshows.both hτ hdisjoint
    exact ⟨υ, hυl, hυr, fun hd => hn (hneutral hd)⟩
  cases op with
  | mul =>
    obtain ⟨υ, hυl, hυr, -⟩ := hboth 1
    have hmul : Shows υ (.binary .mul l r) p q :=
      hυl.binary hυr (by simp) (by simp [Operator.apply]) (by simp [Operator.apply])
    exact ⟨υ, p, q, hmul, hne, hp, hq⟩
  | div =>
    obtain ⟨υ, hυl, hυr, hneutral⟩ := hboth 1
    exact ⟨υ, p, q, hυl.div_neutral hυr (hneutral rfl), hne, hp, hq⟩
  | add =>
    obtain ⟨υ, hυl, hυr, -⟩ := hboth c
    have hadd : Shows υ (.binary .add l r) (p + c) (q + c) := hυl.binary hυr (by simp) rfl rfl
    refine ⟨υ, p + c, q + c, hadd, fun h => hne (add_right_cancel h), ?_, ?_⟩
    · rwa [add_comm]
    · rwa [add_comm]
  | sub =>
    obtain ⟨υ, hυl, hυr, -⟩ := hboth c
    have hsub : Shows υ (.binary .sub l r) (p - c) (q - c) := hυl.binary hυr (by simp) rfl rfl
    refine ⟨υ, p - c, q - c, hsub, fun h => hne (sub_left_injective h), ?_, ?_⟩
    · exact fun h => hcp' (by linarith)
    · exact fun h => hcq' (by linarith)

lemma Apart.binary_right {σ : String → ℚ} {l r : Expression} (hr : r.Apart σ)
    (hl : l.names.Nodup) (hdisjoint : l.names.Disjoint r.names) {op : Operator}
    (hproduct : op = .div → r.precedence ≠ .multiplication) :
    ∃ τ, (binary op l r).Apart τ := by
  obtain ⟨p, q, hshows, hne, hp, hq⟩ := hr
  obtain ⟨c, hcp, hcq, hcp', hcq'⟩ := exists_add_ne_zero p q
  have hboth (d : ℚ) : ∃ υ, Shows υ l d d ∧ Shows υ r p q := by
    obtain ⟨τ, hτ, -⟩ := exists_shows hl d
    obtain ⟨υ, hυl, hυr, -, -⟩ := hτ.both hshows hdisjoint
    exact ⟨υ, hυl, hυr⟩
  cases op with
  | mul =>
    obtain ⟨υ, hυl, hυr⟩ := hboth 1
    have hmul : Shows υ (.binary .mul l r) p q :=
      hυl.binary hυr (by simp) (by simp [Operator.apply]) (by simp [Operator.apply])
    exact ⟨υ, p, q, hmul, hne, hp, hq⟩
  | div =>
    obtain ⟨υ, hυl, hυr⟩ := hboth 1
    refine ⟨υ, 1 / p, 1 / q, hυl.binary hυr hproduct (if_neg hp) (if_neg hq), ?_, ?_, ?_⟩
    · simpa using hne
    · simpa using hp
    · simpa using hq
  | add =>
    obtain ⟨υ, hυl, hυr⟩ := hboth c
    have hadd : Shows υ (.binary .add l r) (c + p) (c + q) := hυl.binary hυr (by simp) rfl rfl
    exact ⟨υ, c + p, c + q, hadd, fun h => hne (add_left_cancel h), hcp, hcq⟩
  | sub =>
    obtain ⟨υ, hυl, hυr⟩ := hboth c
    have hsub : Shows υ (.binary .sub l r) (c - p) (c - q) := hυl.binary hυr (by simp) rfl rfl
    exact ⟨υ, c - p, c - q, hsub, fun h => hne (sub_right_injective h), hcp', hcq'⟩

lemma exists_apart_of_divisor {l r : Expression} (hnodup : (binary .div l r).names.Nodup)
    (hproduct : r.precedence = .multiplication) : ∃ σ, (binary .div l r).Apart σ := by
  obtain ⟨a, b, rfl⟩ : ∃ a b, r = binary .mul a b := by
    cases r with
    | var name => cases hproduct
    | binary op a b => cases op <;> first | exact ⟨a, b, rfl⟩ | cases hproduct
  obtain ⟨hl, hr, hdisjoint⟩ := List.nodup_append'.mp hnodup
  obtain ⟨ha, hb, hab⟩ := List.nodup_append'.mp hr
  obtain ⟨σ, hσ, -⟩ := exists_shows hl 1
  obtain ⟨τ, hτ, hneutral⟩ := exists_shows ha 1
  obtain ⟨υ, hυ, -⟩ := exists_shows hb 2
  obtain ⟨ρ, hρa, hρb, hρn, -⟩ := hτ.both hυ hab
  obtain ⟨ω, hleft, hright⟩ := exists_agreeing hdisjoint σ ρ
  have ha' : ∀ n ∈ a.names, ρ n = ω n := fun n hn => hright n (List.mem_append_left _ hn)
  have hb' : ∀ n ∈ b.names, ρ n = ω n := fun n hn => hright n (List.mem_append_right _ hn)
  have hshows := (hσ.congr hleft).div_mul (hρa.congr ha')
    (neutral_congr ha' (hρn (hneutral rfl))) (hρb.congr hb')
  exact ⟨ω, 1 / 2, 2, hshows, by norm_num, by norm_num, by norm_num⟩

theorem exists_apart {t : Expression} (hnodup : t.names.Nodup) (h : t.DividesByProduct) :
    ∃ σ, t.Apart σ := by
  induction t with
  | var name => exact h.elim
  | binary op l r ihl ihr =>
    obtain ⟨hl, hr, hdisjoint⟩ := List.nodup_append'.mp hnodup
    by_cases hdivisor : op = .div ∧ r.precedence = .multiplication
    · obtain ⟨rfl, hproduct⟩ := hdivisor
      exact exists_apart_of_divisor hnodup hproduct
    · rcases h.resolve_left hdivisor with hleft | hright
      · obtain ⟨σ, hσ⟩ := ihl hl hleft
        exact hσ.binary_left hr hdisjoint op
      · obtain ⟨σ, hσ⟩ := ihr hr hright
        exact hσ.binary_right hl hdisjoint fun hop hproduct => hdivisor ⟨hop, hproduct⟩

end BlockProgram.Expression
