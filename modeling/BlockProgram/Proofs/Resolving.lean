import BlockProgram.Proofs.Expanding
import BlockProgram.Proofs.Localizing

/-!
# Resolving is four passes

A pass over a text puts the texts of the catalogue in for the references that the catalogue
knows, from the left, and does not look at what it has put in. The next pass does, and may
find references that have come together from both. Resolving stops early in two cases: when
there is no reference left, and when a pass has replaced nothing. In both cases the passes
that are left out would change nothing, so that the outcome is that of four passes for every
catalogue, also for one whose texts refer to each other in circles.
-/
namespace BlockProgram.Catalog

open Text

/-! ### References -/

/-- A text of the form `[A-Za-z0-9_]+`. -/
def IsKey (s : String) : Prop := s ≠ "" ∧ ∀ c ∈ s.toList, IsLetter c ∨ ('0' ≤ c ∧ c ≤ '9')

/-- The reference to a key as it is written. -/
def written (key : String) : String := "%\x7bBKY_" ++ key ++ "\x7d"

/-- Somewhere in the text stands a reference. -/
def HasReference (text : String) : Prop := ∃ u key v, IsKey key ∧ text = u ++ written key ++ v

lemma admits_iff_isKey (s : String) : reference.Admits s.toList ↔ IsKey s := by
  have hne : s ≠ "" ↔ s.toList ≠ [] := by simp
  rw [IsKey, hne, Marker.Admits]
  cases s.toList with
  | nil => simp
  | cons c rest => simp [reference, isNameChar_iff]

lemma toList_written (key : String) : (written key).toList = reference.literal key := by
  simp [written, Marker.literal, reference]

lemma refers_iff (text : String) : Refers text ↔ HasReference text := by
  simp only [Refers, HasReference, Marker.occurs_iff_written toList_written, admits_iff_isKey]

lemma length_lt_of_written (u key v : String) :
    u.length < (u ++ written key ++ v).length ∧ v.length < (u ++ written key ++ v).length := by
  have hopening : "%\x7bBKY_".length = 6 := rfl
  simp only [written, String.length_append]
  omega

/-- Before the leftmost reference there is none. -/
lemma HasReference.exists_leftmost {text : String} (h : HasReference text) :
    ∃ u key v, IsKey key ∧ ¬ HasReference u ∧ text = u ++ written key ++ v := by
  induction hlength : text.length using Nat.strong_induction_on generalizing text with
  | _ length ih =>
    obtain ⟨u, key, v, hkey, rfl⟩ := h
    by_cases hu : HasReference u
    · have hlt := (length_lt_of_written u key v).1
      obtain ⟨u', key', v', hkey', hnone, rfl⟩ := ih u.length (hlength ▸ hlt) hu rfl
      exact ⟨u', key', v' ++ written key ++ v, hkey', hnone, by simp only [String.append_assoc]⟩
    · exact ⟨u, key, v, hkey, hu, rfl⟩

/-! ### A single pass -/

/-- The laws of a single pass: a text without references stays, and the leftmost reference
becomes the text of its key, or stays if the key is unknown, before the pass goes on behind
it. -/
structure SinglePass (c : Catalog) (f : String → String) : Prop where
  plain : ∀ text, ¬ HasReference text → f text = text
  leftmost : ∀ u key v, IsKey key → ¬ HasReference u →
    f (u ++ written key ++ v) = u ++ (c.get? key).getD (written key) ++ f v

lemma reference_opensWith : reference.OpensWith '%' where
  opening := ⟨['\x7b', 'B', 'K', 'Y', '_'], rfl, by decide⟩
  first := by decide
  inner := by decide
  closing := by decide
  closes := by decide

/-- A pass over a text. -/
def passText (c : Catalog) (text : String) : String := String.ofList (c.pass text.toList)

lemma pass_of_not_hasReference (c : Catalog) {text : String} (h : ¬ HasReference text) :
    c.pass text.toList = text.toList := by
  rw [← refers_iff] at h
  rw [pass, Marker.scan_of_not_occurs h, Marker.fill_map_char]

lemma singlePass_passText (c : Catalog) : c.SinglePass c.passText where
  plain text hnone := by
    rw [passText, c.pass_of_not_hasReference hnone, String.ofList_toList]
  leftmost u key v hkey hnone := by
    have hpass : c.pass (u ++ written key ++ v).toList =
        c.pass u.toList ++ ((c.get? key).getD (written key)).toList ++ c.pass v.toList :=
      reference_opensWith.fill_around ((admits_iff_isKey key).mpr hkey) (toList_written key) _ u v
    rw [passText, hpass, c.pass_of_not_hasReference hnone, String.ofList_append,
      String.ofList_append, String.ofList_toList, String.ofList_toList, passText]

/-- The laws leave no choice, since what is behind a reference is shorter. -/
lemma SinglePass.eq {c : Catalog} {f f' : String → String} (h : c.SinglePass f)
    (h' : c.SinglePass f') : f = f' := by
  funext text
  induction hlength : text.length using Nat.strong_induction_on generalizing text with
  | _ length ih =>
    by_cases hrefers : HasReference text
    · obtain ⟨u, key, v, hkey, hnone, rfl⟩ := hrefers.exists_leftmost
      have hlt := (length_lt_of_written u key v).2
      rw [h.leftmost u key v hkey hnone, h'.leftmost u key v hkey hnone,
        ih v.length (hlength ▸ hlt) v rfl]
    · rw [h.plain text hrefers, h'.plain text hrefers]

/-! ### The loop -/

/-- The loop may leave out passes, but only such as change nothing. -/
theorem resolveWithin_eq_iterate (c : Catalog) (n : Nat) (text : List Char) :
    c.resolveWithin n text = c.pass^[n] text := by
  induction n generalizing text with
  | zero => rfl
  | succ n ih =>
    cases hfills : Marker.fills c.get? (reference.scan text) with
    | true =>
      have hnames : (Marker.names (reference.scan text)).isEmpty = false := by
        rw [Bool.eq_false_iff]
        intro hempty
        rw [Marker.fills, List.isEmpty_iff.mp hempty, List.any_nil] at hfills
        cases hfills
      simp only [resolveWithin, hnames, hfills, Bool.false_eq_true, if_false, if_true]
      rw [ih, Function.iterate_succ_apply]
    | false =>
      have hfixed : c.pass text = text := Marker.fill_of_not_fills hfills
      rw [c.resolveWithin_of_not_fills _ hfills, Function.iterate_fixed hfixed]

lemma resolve_eq_iterate (c : Catalog) (text : String) :
    c.resolve text = c.passText^[4] text := by
  have hsemi : Function.Semiconj String.ofList c.pass c.passText := by
    intro cs
    rw [passText, String.toList_ofList]
  have hpasses := (hsemi.iterate_right 4).eq text.toList
  rw [String.ofList_toList] at hpasses
  rw [resolve, c.resolveWithin_eq_iterate, maxDepth, hpasses]

/-- There is one function that obeys the laws of a single pass, and to resolve a text is to
apply it four times. If one of the four passes leaves its text as it is, resolving ends with
that text, no pass changes it, and resolving it again gives it back. -/
theorem resolve_is_four_passes (c : Catalog) :
    (∃! f, c.SinglePass f) ∧ ∀ f, c.SinglePass f → ∀ text,
      c.resolve text = f^[4] text ∧
        ∀ k < 4, f (f^[k] text) = f^[k] text →
          c.resolve text = f^[k] text ∧ f (c.resolve text) = c.resolve text ∧
            c.resolve (c.resolve text) = c.resolve text := by
  refine ⟨⟨c.passText, c.singlePass_passText, fun f hf => hf.eq c.singlePass_passText⟩,
    fun f hf text => ?_⟩
  obtain rfl : f = c.passText := hf.eq c.singlePass_passText
  refine ⟨c.resolve_eq_iterate text, fun k hk hfixed => ?_⟩
  have hresult : c.resolve text = c.passText^[k] text := by
    calc c.resolve text = c.passText^[4 - k] (c.passText^[k] text) := by
          rw [c.resolve_eq_iterate, ← Function.iterate_add_apply, Nat.sub_add_cancel hk.le]
      _ = c.passText^[k] text := Function.iterate_fixed hfixed _
  rw [hresult]
  exact ⟨rfl, hfixed, by rw [c.resolve_eq_iterate, Function.iterate_fixed hfixed]⟩

/-- A text that is the beginning of a reference, a plain one, and one that refers to itself. -/
def joiningCatalog : Catalog where
  texts := .ofList [("OPEN", "%\x7bBKY_"), ("WORD", "word"), ("LOOP", "%\x7bBKY_LOOP\x7d!")]

/-- A reference that only comes about in the first pass is replaced in the second, and the
third changes nothing. -/
theorem joiningCatalog_resolves :
    joiningCatalog.passText (joiningCatalog.passText^[2] "a %\x7bBKY_OPEN\x7dWORD\x7d") =
        joiningCatalog.passText^[2] "a %\x7bBKY_OPEN\x7dWORD\x7d" ∧
      joiningCatalog.resolve "a %\x7bBKY_OPEN\x7dWORD\x7d" = "a word" ∧
      joiningCatalog.resolve "a word" = "a word" := by
  have hfixed : joiningCatalog.passText
        (joiningCatalog.passText^[2] "a %\x7bBKY_OPEN\x7dWORD\x7d") =
      joiningCatalog.passText^[2] "a %\x7bBKY_OPEN\x7dWORD\x7d" := by decide +kernel
  obtain ⟨-, hpasses⟩ := resolve_is_four_passes joiningCatalog
  obtain ⟨-, hstops⟩ := hpasses _ joiningCatalog.singlePass_passText
    "a %\x7bBKY_OPEN\x7dWORD\x7d"
  obtain ⟨hresult, -, hagain⟩ := hstops 2 (by decide) hfixed
  have hword : joiningCatalog.passText^[2] "a %\x7bBKY_OPEN\x7dWORD\x7d" = "a word" := by
    decide +kernel
  rw [hword] at hresult
  rw [hresult] at hagain
  exact ⟨hfixed, hresult, hagain⟩

-- No pass leaves a text alone that refers to itself, so that all four are made.
example : joiningCatalog.resolve "%\x7bBKY_LOOP\x7d %\x7bBKY_NONE\x7d" =
    "%\x7bBKY_LOOP\x7d!!!! %\x7bBKY_NONE\x7d" := by decide +kernel

end BlockProgram.Catalog
