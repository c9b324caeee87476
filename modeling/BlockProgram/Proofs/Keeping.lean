import BlockProgram.Proofs.Generating

/-!
# Busy blocks after a generation

A block is busy while its code is generated and is released when that ends, well or not. So
however a generation ends, and whatever scripts it runs, the busy blocks are those it was
started with, and the next generation finds them as if it were the first.
-/
namespace BlockProgram

namespace Generation

variable {α β : Type} {busy : List BlockId}

/-- The generation leaves the busy blocks as they were, however it ends. -/
def Keeps (x : Generation α) : Prop := ∀ busy, (x.start busy).2 = busy

lemma Keeps.pure (a : α) : (pure a : Generation α).Keeps := fun _ => rfl

lemma Keeps.throw (failure : Failure) : (throw failure : Generation α).Keeps := fun _ => rfl

lemma Keeps.bind {x : Generation α} {f : α → Generation β} (hx : x.Keeps)
    (hf : ∀ a, (f a).Keeps) : (x >>= f).Keeps := by
  intro busy
  have hbusy := hx busy
  rw [start_bind]
  rcases hstart : x.start busy with ⟨result, after⟩
  rw [hstart] at hbusy
  cases result with
  | ok a => exact (hf a after).trans hbusy
  | error failure => exact hbusy

/-- The block that has become busy is the one that is released. -/
lemma Keeps.guarded {body : Generation α} (h : body.Keeps) (id : BlockId) :
    (guarded id body).Keeps := by
  intro busy
  rw [start_guarded]
  split
  · rfl
  · rw [h, List.erase_cons_head]

lemma Keeps.map {x : Generation α} (h : x.Keeps) (f : α → β) : (f <$> x).Keeps := by
  rw [map_eq_pure_bind]
  exact h.bind fun a => .pure (f a)

lemma Keeps.attempt {x : Generation α} (h : x.Keeps) : x.attempt.Keeps := h

/-- A generation that ends well does so with the busy blocks it was started with. -/
lemma Keeps.start_eq_ok {x : Generation α} (h : x.Keeps) {a : α}
    (hok : (x.start busy).1 = .ok a) : x.start busy = (.ok a, busy) :=
  Prod.ext hok (h busy)

lemma Keeps.bind_eq_ok {x : Generation α} {f : α → Generation β} (hx : x.Keeps) {b : β}
    (h : ((x >>= f).start busy).1 = .ok b) :
    ∃ a, x.start busy = (.ok a, busy) ∧ ((f a).start busy).1 = .ok b := by
  obtain ⟨a, after, hstart, hnext⟩ := exists_of_bind_eq_ok h
  obtain rfl : after = busy := by rw [← hx busy, hstart]
  exact ⟨a, hstart, hnext⟩

end Generation

namespace Generator

open Generation

variable {g : Generator} {block : BlockId → Generation Code} (hblock : ∀ k, (block k).Keeps)
include hblock

/-! ### Steps of the generator -/

lemma operand_keeps (id : BlockId) (input : String) (order : Precedence) :
    (g.operand block id input order).Keeps := by
  unfold operand
  split
  · exact .pure _
  · next target _ =>
    split
    · exact .pure _
    · refine (hblock target).bind fun code => ?_
      cases code with
      | value text inner => exact .pure _
      | statement text => exact .throw _

lemma link_keeps (id : BlockId) : (g.link block id).Keeps := by
  unfold link
  split
  · exact .pure _
  · refine (hblock id).bind fun code => ?_
    cases code with
    | statement text => exact .pure _
    | value text inner => exact .throw _

lemma links_keeps (ids : List BlockId) : (g.links block ids).Keeps := by
  induction ids with
  | nil => exact .pure _
  | cons id rest ih => exact (link_keeps hblock id).bind fun text => ih.bind fun more => .pure _

lemma chain_keeps (first : BlockId) : (g.chain block first).Keeps := by
  refine (links_keeps hblock _).bind fun text => ?_
  split
  · exact .throw _
  · exact .pure _

lemma body_keeps (id : BlockId) (input : String) : (g.body block id input).Keeps := by
  unfold body
  split
  · exact .pure _
  · next first _ => exact (chain_keeps hblock first).bind fun text => .pure _

lemma fragment_keeps (id : BlockId) (a : Argument) : (g.fragment block id a).Keeps := by
  unfold fragment
  split
  · exact operand_keeps hblock id a.name _
  · exact body_keeps hblock id a.name
  · exact .pure _

lemma fragments_keeps (id : BlockId) (template : String) (args : List Argument) :
    (g.fragments block id template args).Keeps := by
  induction args with
  | nil => exact .pure _
  | cons a rest ih =>
    unfold fragments
    split
    · exact (fragment_keeps hblock id a).bind fun text => ih.bind fun more => .pure _
    · exact ih

lemma topCode_keeps (id : BlockId) : (g.topCode block id).Keeps := by
  unfold topCode
  split
  · exact .pure _
  · split
    · exact .throw _
    · split
      · exact .throw _
      · split
        · exact (chain_keeps hblock id).map _
        · exact .pure _

lemma topCodes_keeps (ids : List BlockId) : (g.topCodes block ids).Keeps := by
  induction ids with
  | nil => exact .pure _
  | cons id rest ih => exact (topCode_keeps hblock id).bind fun text => ih.bind fun more => .pure _

lemma programFrom_keeps : (g.programFrom block).Keeps :=
  (topCodes_keeps hblock _).bind fun _ => .pure _

/-- A script may handle failures, but it cannot make blocks busy by itself. -/
lemma perform_keeps (script : Script) : (g.perform block script).Keeps := by
  induction script with
  | done code => exact .pure _
  | fail failure => exact .throw _
  | block id next ih => exact (hblock id).attempt.bind fun answer => ih answer
  | value id input order next ih =>
    exact (operand_keeps hblock id input order).attempt.bind fun answer => ih answer
  | statement id input next ih =>
    exact (body_keeps hblock id input).attempt.bind fun answer => ih answer
  | chain id next ih => exact (chain_keeps hblock id).attempt.bind fun answer => ih answer
  | field id arg next ih => exact ih _
  | program next ih => exact (programFrom_keeps hblock).attempt.bind fun answer => ih answer

lemma codeOf_keeps (id : BlockId) : (g.codeOf block id).Keeps := by
  unfold codeOf
  split
  · exact .throw _
  · split
    · exact .throw _
    · exact perform_keeps hblock _
    · split
      · exact .throw _
      · exact (fragments_keeps hblock id _ _).bind fun filled => .pure _

omit hblock in
/-- The code of a block leaves the busy blocks as they were. -/
theorem blockWithin_keeps (g : Generator) (depth : Nat) (id : BlockId) :
    (g.blockWithin depth id).Keeps := by
  induction depth generalizing id with
  | zero => exact .throw _
  | succ depth ih => exact (codeOf_keeps ih id).guarded id

omit hblock

/-- A block that is busy is refused, and stays busy. -/
lemma blockWithin_of_mem (g : Generator) (depth : Nat) {id : BlockId} {busy : List BlockId}
    (h : id ∈ busy) :
    (g.blockWithin depth id).start busy = (.error (.code (.connectedToItself id)), busy) := by
  cases depth with
  | zero => rfl
  | succ depth => rw [blockWithin, start_guarded, if_pos h]

/-- Any other block is busy while its code is generated, and not longer. -/
lemma blockWithin_of_not_mem (g : Generator) (depth : Nat) {id : BlockId} {busy : List BlockId}
    (h : id ∉ busy) :
    (g.blockWithin (depth + 1) id).start busy =
      (((g.codeOf (g.blockWithin depth) id).start (id :: busy)).1, busy) := by
  rw [blockWithin, start_guarded, if_neg h, codeOf_keeps (g.blockWithin_keeps depth) id,
    List.erase_cons_head]

/-! ### Calls one after the other -/

/-- What may be asked of a generator. -/
inductive Call where
  | block (id : BlockId)
  | operand (id : BlockId) (input : String) (order : Precedence)
  | body (id : BlockId) (input : String)
  | chain (first : BlockId)
  | program

/-- The code of a block or a text, as a call asks for it. -/
def answer (g : Generator) (depth : Nat) : Call → Generation (Code ⊕ String)
  | .block id => .inl <$> g.blockWithin depth id
  | .operand id input order => .inr <$> g.operand (g.blockWithin depth) id input order
  | .body id input => .inr <$> g.body (g.blockWithin depth) id input
  | .chain first => .inr <$> g.chain (g.blockWithin depth) first
  | .program => .inr <$> g.programFrom (g.blockWithin depth)

/-- The answers to calls, one after the other. A call that fails is followed by the next. -/
def answers (g : Generator) (depth : Nat) :
    List Call → Generation (List (Except Failure (Code ⊕ String)))
  | [] => pure []
  | call :: rest => do
    let result ← (g.answer depth call).attempt
    let more ← g.answers depth rest
    return result :: more

lemma answer_keeps (g : Generator) (depth : Nat) (call : Call) : (g.answer depth call).Keeps := by
  have hblock := g.blockWithin_keeps depth
  cases call with
  | block id => exact (hblock id).map _
  | operand id input order => exact (operand_keeps hblock id input order).map _
  | body id input => exact (body_keeps hblock id input).map _
  | chain first => exact (chain_keeps hblock first).map _
  | program => exact (programFrom_keeps hblock).map _

/-- No call has a part in the answers to those that follow it. -/
lemma start_answers (g : Generator) (depth : Nat) (calls : List Call) (busy : List BlockId) :
    (g.answers depth calls).start busy =
      (.ok (calls.map fun call => ((g.answer depth call).start busy).1), busy) := by
  induction calls with
  | nil => rfl
  | cons call rest ih =>
    rw [answers, start_bind, start_attempt, g.answer_keeps depth call busy]
    dsimp only
    rw [start_bind, ih, List.map_cons]
    rfl

/-- The busy blocks are restored by every call, whether it ends well or fails at any depth. A
block that is busy already is refused and stays busy; another is busy for as long as its code
is generated. So calls one after the other, also after failures, are answered as each would be
by a generator that nothing has been asked of before. -/
theorem busy_restored (g : Generator) (depth : Nat) (busy : List BlockId) :
    (∀ id, ((g.blockWithin depth id).start busy).2 = busy) ∧
    (∀ id input order,
      ((g.operand (g.blockWithin depth) id input order).start busy).2 = busy) ∧
    (∀ id input, ((g.body (g.blockWithin depth) id input).start busy).2 = busy) ∧
    (∀ first, ((g.chain (g.blockWithin depth) first).start busy).2 = busy) ∧
    (∀ id ∈ busy, (g.blockWithin depth id).start busy =
      (.error (.code (.connectedToItself id)), busy)) ∧
    (∀ id ∉ busy, (g.blockWithin (depth + 1) id).start busy =
      (((g.codeOf (g.blockWithin depth) id).start (id :: busy)).1, busy)) ∧
    ∀ calls, (g.answers depth calls).start busy =
      (.ok (calls.map fun call => ((g.answer depth call).start busy).1), busy) := by
  have hblock := g.blockWithin_keeps depth
  exact ⟨fun id => hblock id busy, fun id input order => operand_keeps hblock id input order busy,
    fun id input => body_keeps hblock id input busy, fun first => chain_keeps hblock first busy,
    fun _ h => g.blockWithin_of_mem depth h, fun _ h => g.blockWithin_of_not_mem depth h,
    fun calls => g.start_answers depth calls busy⟩

end Generator

end BlockProgram
