import BlockProgram.Proofs.Agreeing

/-!
# Generation ends, and the loops it reports are there

Links may lead anywhere, also in circles. Generation goes down through inputs, where
busy blocks stop it, and along chains, where a block met before in the same chain stops
it. A chain may lead back to a block whose code is being generated, so neither guard is
enough by itself. Together they are: the blocks that are busy at one time are different
blocks of the workspace, and each of them leads to the block at hand. So there is a depth
below which nothing is ever asked for, also by scripts, and without scripts a block that
stops the generation leads to itself.
-/
namespace BlockProgram

/-- The block at which a failure reports a loop. -/
def Failure.loop? : Failure → Option BlockId
  | .code (.connectedToItself block) => some block
  | .code (.chainLoops block) => some block
  | _ => none

namespace Generation

variable {α β : Type} {busy : List BlockId} {R : BlockId → Prop}

/-- The block at which a generation reports a loop, if that is how it fails. -/
def loop? (x : Generation α) (busy : List BlockId) : Option BlockId :=
  match (x.start busy).1 with
  | .error failure => failure.loop?
  | .ok _ => none

/-- Both generations end alike, leave the busy blocks as they were, and report loops only
at blocks in `R`. -/
structure Alike (x y : Generation α) (busy : List BlockId) (R : BlockId → Prop) : Prop where
  same : x.Same y busy
  loops : ∀ r, x.loop? busy = some r → R r

lemma loop?_of_error {x : Generation α} {failure : Failure} {after : List BlockId}
    (h : x.start busy = (.error failure, after)) : x.loop? busy = failure.loop? := by
  rw [loop?, h]

lemma Alike.pure (a : α) : (pure a : Generation α).Alike (pure a) busy R :=
  ⟨.pure a, fun _ h => by cases h⟩

lemma Alike.throw {failure : Failure} (h : ∀ r, failure.loop? = some r → R r) :
    (throw failure : Generation α).Alike (throw failure) busy R :=
  ⟨.throw failure, h⟩

lemma Alike.bind {x y : Generation α} {f f' : α → Generation β} (hx : x.Alike y busy R)
    (hf : ∀ a, (f a).Alike (f' a) busy R) : (x >>= f).Alike (y >>= f') busy R := by
  refine ⟨hx.same.bind fun a => (hf a).same, fun r hr => ?_⟩
  have hbusy := hx.same.2
  have hstart := start_bind x f busy
  rcases hxs : x.start busy with ⟨result, after⟩
  rw [hxs] at hbusy hstart
  obtain rfl : after = busy := hbusy
  cases result with
  | ok a =>
    refine (hf a).loops r ?_
    rwa [loop?, hstart] at hr
  | error failure =>
    refine hx.loops r ?_
    rwa [loop?_of_error hxs, ← loop?_of_error hstart]

/-- An attempt fails at no block. -/
lemma Alike.attempt {x y : Generation α} (h : x.Alike y busy R) :
    x.attempt.Alike y.attempt busy R := by
  refine ⟨⟨?_, h.same.2⟩, fun r hr => ?_⟩
  · rw [start_attempt, start_attempt, h.same.1]
  · rw [loop?, start_attempt] at hr
    cases hr

/-- A block that is busy already is reported; otherwise it is busy meanwhile. -/
lemma Alike.guarded {id : BlockId} {body body' : Generation α} (hbusy : id ∈ busy → R id)
    (h : id ∉ busy → body.Alike body' (id :: busy) R) :
    (guarded id body).Alike (guarded id body') busy R := by
  refine ⟨.guarded fun hid => (h hid).same, fun r hr => ?_⟩
  rw [loop?, start_guarded] at hr
  by_cases hid : id ∈ busy
  · rw [if_pos hid] at hr
    cases hr
    exact hbusy hid
  · rw [if_neg hid] at hr
    exact (h hid).loops r hr

end Generation

/-- A chain is followed to its end, or to the first block that comes again. -/
lemma Workspace.leads_chain (w : Workspace) (first : BlockId) :
    Trail.Leads w.next? [] first (w.chain first) :=
  Trail.leads_follow (fun _ _ => w.mem_ids_of_next?) w.blocks.length_keys first

/-! ### Steps of the generator -/

namespace Generator

open Generation

variable {g : Generator} {block block' : BlockId → Generation Code} {id : BlockId}
  {busy : List BlockId} {R : BlockId → Prop}

lemma operand_alike {input : String}
    (hblock : ∀ k, g.workspace.Holds id k → (block k).Alike (block' k) busy R)
    (order : Precedence) :
    (g.operand block id input order).Alike (g.operand block' id input order) busy R := by
  unfold operand
  split
  · exact .pure _
  · next target htarget =>
    split
    · exact .pure _
    · refine (hblock target ⟨.input input, htarget⟩).bind fun code => ?_
      cases code with
      | value text inner => exact .pure _
      | statement text => exact .throw fun _ h => by cases h

lemma link_alike (hblock : (block id).Alike (block' id) busy R) :
    (g.link block id).Alike (g.link block' id) busy R := by
  unfold link
  split
  · exact .pure _
  · refine hblock.bind fun code => ?_
    cases code with
    | statement text => exact .pure _
    | value text inner => exact .throw fun _ h => by cases h

lemma links_alike {ids : List BlockId}
    (hblock : ∀ k ∈ ids, (block k).Alike (block' k) busy R) :
    (g.links block ids).Alike (g.links block' ids) busy R := by
  induction ids with
  | nil => exact .pure _
  | cons id rest ih =>
    rw [List.forall_mem_cons] at hblock
    exact (link_alike hblock.1).bind fun text => (ih hblock.2).bind fun more => .pure _

section Rounds

variable (hround : ∀ r, Relation.TransGen g.workspace.Holds r r → R r)
include hround

/-- A chain that comes back on itself leads round. -/
lemma chain_alike {first : BlockId}
    (hblock : ∀ k, g.workspace.InChain first k → (block k).Alike (block' k) busy R) :
    (g.chain block first).Alike (g.chain block' first) busy R := by
  unfold chain
  refine (links_alike fun k hk => hblock k (Trail.reaches_of_mem_walk hk)).bind fun text => ?_
  split
  · next r hr =>
    refine .throw fun r' h => ?_
    cases h
    exact hround r (Relation.TransGen.mono (fun _ _ hnext => ⟨.next, hnext⟩) _ _
      (Trail.cycle_of_repeats hr))
  · exact .pure _

lemma body_alike {input : String}
    (hblock : ∀ k, Relation.TransGen g.workspace.Holds id k → (block k).Alike (block' k) busy R) :
    (g.body block id input).Alike (g.body block' id input) busy R := by
  unfold body
  split
  · exact .pure _
  · next first hfirst =>
    have hbelow (k : BlockId) (hk : g.workspace.InChain first k) :
        Relation.TransGen g.workspace.Holds id k :=
      .head' ⟨.input input, hfirst⟩ hk.holds
    exact (chain_alike hround fun k hk => hblock k (hbelow k hk)).bind fun text => .pure _

lemma fragments_alike {template : String} {args : List Argument}
    (hblock : ∀ k, Relation.TransGen g.workspace.Holds id k → (block k).Alike (block' k) busy R) :
    (g.fragments block id template args).Alike (g.fragments block' id template args) busy R := by
  induction args with
  | nil => exact .pure _
  | cons a rest ih =>
    have hfragment : (g.fragment block id a).Alike (g.fragment block' id a) busy R := by
      unfold fragment
      split
      · exact operand_alike (fun k hk => hblock k (.single hk)) _
      · exact body_alike hround hblock
      · exact .pure _
    unfold fragments
    split
    · exact hfragment.bind fun text => ih.bind fun more => .pure _
    · exact ih

section All

variable (hblock : ∀ k, (block k).Alike (block' k) busy R)
include hblock

lemma topCode_alike (id : BlockId) :
    (g.topCode block id).Alike (g.topCode block' id) busy R := by
  unfold topCode
  split
  · exact .pure _
  · split
    · exact .throw fun _ h => by cases h
    · split
      · exact .throw fun _ h => by cases h
      · split
        · rw [map_eq_pure_bind, map_eq_pure_bind]
          exact (chain_alike hround fun k _ => hblock k).bind fun text => .pure _
        · exact .pure _

lemma topCodes_alike (ids : List BlockId) :
    (g.topCodes block ids).Alike (g.topCodes block' ids) busy R := by
  induction ids with
  | nil => exact .pure _
  | cons id rest ih =>
    exact (topCode_alike hround hblock id).bind fun text => ih.bind fun more => .pure _

lemma programFrom_alike : (g.programFrom block).Alike (g.programFrom block') busy R :=
  (topCodes_alike hround hblock _).bind fun _ => .pure _

/-- A script may fail in any way, also like a loop. -/
lemma perform_alike (hfails : ∀ (failure : Failure) r, failure.loop? = some r → R r)
    (script : Script) :
    (g.perform block script).Alike (g.perform block' script) busy R := by
  induction script with
  | done code => exact .pure _
  | fail failure => exact .throw (hfails failure)
  | block id next ih => exact (hblock id).attempt.bind ih
  | value id input order next ih =>
    exact (operand_alike (fun k _ => hblock k) order).attempt.bind ih
  | statement id input next ih =>
    exact (body_alike hround fun k _ => hblock k).attempt.bind ih
  | chain id next ih => exact (chain_alike hround fun k _ => hblock k).attempt.bind ih
  | field id arg next ih => exact ih _
  | program next ih => exact (programFrom_alike hround hblock).attempt.bind ih

end All

end Rounds

/-- The code of the first block may ask for that of the second: it leads there, or there are
scripts, which may ask for any block. -/
def Asks (g : Generator) (a b : BlockId) : Prop :=
  Relation.TransGen g.workspace.Holds a b ∨
    ∃ type kind code, g.vocabulary.get? type = some (.hosted kind code)

lemma asks_of_round (r : BlockId) (h : Relation.TransGen g.workspace.Holds r r) : g.Asks r r :=
  .inl h

lemma Asks.trans {a b c : BlockId} (hab : g.Asks a b) (hbc : g.Asks b c) : g.Asks a c := by
  rcases hab with hab | hscripts
  · rcases hbc with hbc | hscripts
    · exact .inl (hab.trans hbc)
    · exact .inr hscripts
  · exact .inr hscripts

/-- A block is asked for only by one that is there itself. -/
lemma codeOf_alike (hblock : id ∈ g.workspace.ids → ∀ k, g.Asks id k →
      (block k).Alike (block' k) busy fun r => g.Asks r r) :
    (g.codeOf block id).Alike (g.codeOf block' id) busy fun r => g.Asks r r := by
  unfold codeOf
  split
  · exact .throw fun _ h => by cases h
  · next type htype =>
    have hlive : id ∈ g.workspace.ids := Workspace.mem_ids_of_type? htype
    split
    · exact .throw fun _ h => by cases h
    · next kind code hget =>
      have hscripts : ∃ type kind code, g.vocabulary.get? type = some (.hosted kind code) :=
        ⟨type, kind, code, hget⟩
      exact perform_alike asks_of_round (fun k => hblock hlive k (.inr hscripts))
        (fun _ _ _ => .inr hscripts) _
    · next d _ =>
      split
      · exact .throw fun _ h => by cases h
      · exact (fragments_alike asks_of_round fun k hk => hblock hlive k (.inl hk)).bind
          fun filled => .pure _

/-! ### Going down -/

/-- The code of a block, where blocks below the given depth are left to `beyond`. -/
def blockDown (g : Generator) (beyond : BlockId → Generation Code) :
    Nat → BlockId → Generation Code
  | 0, id => beyond id
  | depth + 1, id => Generation.guarded id (g.codeOf (g.blockDown beyond depth) id)

lemma blockWithin_eq_blockDown (depth : Nat) :
    g.blockWithin depth = g.blockDown (fun id => throw (.code (.connectedToItself id))) depth := by
  induction depth with
  | zero => rfl
  | succ depth ih =>
    funext id
    rw [blockWithin, blockDown, ih]

/-- As long as there is room, it does not matter what lies beyond. Every busy block asks for
the block at hand, so if that is busy itself it asks for itself. -/
theorem blockDown_alike {beyond beyond' : BlockId → Generation Code} {depth depth' : Nat}
    (hroom : Room g.workspace depth busy) (hroom' : Room g.workspace depth' busy)
    (hbusy : ∀ b ∈ busy, g.Asks b id) :
    (g.blockDown beyond depth id).Alike (g.blockDown beyond' depth' id) busy
      fun r => g.Asks r r := by
  induction depth generalizing depth' busy id with
  | zero => exact absurd hroom.pos (Nat.lt_irrefl 0)
  | succ depth ih =>
    cases depth' with
    | zero => exact absurd hroom'.pos (Nat.lt_irrefl 0)
    | succ depth' =>
      refine .guarded (hbusy id) fun hid => codeOf_alike
        fun hlive k hk => ih (hroom.push hid hlive) (hroom'.push hid hlive) fun b hb => ?_
      rcases List.mem_cons.mp hb with rfl | hb
      · exact hk
      · exact (hbusy b hb).trans hk

lemma block_alike (beyond : BlockId → Generation Code) {depth : Nat}
    (hdepth : g.workspace.size < depth) (id : BlockId) :
    (g.block id).Alike (g.blockDown beyond depth id) [] fun r => g.Asks r r := by
  have hroom : Room g.workspace depth [] :=
    ⟨List.nodup_nil, List.nil_subset _, by simpa using hdepth⟩
  rw [block, blockWithin_eq_blockDown]
  exact blockDown_alike (Room.start _) hroom fun _ hb => by cases hb

/-- Generation ends on every workspace: a chain is followed to its end or to the first
block that comes again, and what would happen to blocks nested deeper than there are
blocks makes no difference to a block, a chain or a program. Where one of them reports a
loop and there are no scripts, there is a way round from the reported block. -/
theorem generation_terminates (g : Generator) :
    (∀ first, Trail.Leads g.workspace.next? [] first (g.workspace.chain first)) ∧
    (∀ beyond depth, g.workspace.size < depth →
      (∀ id, (g.block id).start [] = (g.blockDown beyond depth id).start []) ∧
      (∀ first, (g.chain g.block first).start [] =
        (g.chain (g.blockDown beyond depth) first).start []) ∧
      g.program.start [] = (g.programFrom (g.blockDown beyond depth)).start []) ∧
    ((∀ type kind code, g.vocabulary.get? type ≠ some (.hosted kind code)) →
      (∀ id r, (g.block id).loop? [] = some r → Relation.TransGen g.workspace.Holds r r) ∧
      (∀ first r, (g.chain g.block first).loop? [] = some r →
        Relation.TransGen g.workspace.Holds r r) ∧
      ∀ r, g.program.loop? [] = some r → Relation.TransGen g.workspace.Holds r r) := by
  refine ⟨g.workspace.leads_chain, fun beyond depth hdepth => ?_, fun hdeclared => ?_⟩
  · have hblock := block_alike (g := g) beyond hdepth
    exact ⟨fun id => (hblock id).same.1,
      fun first => (chain_alike asks_of_round fun k _ => hblock k).same.1,
      (programFrom_alike asks_of_round hblock).same.1⟩
  · have hblock := block_alike (g := g) g.block (Nat.lt_succ_self _)
    have hholds (r : BlockId) (hr : g.Asks r r) : Relation.TransGen g.workspace.Holds r r := by
      refine hr.resolve_right ?_
      rintro ⟨type, kind, code, hget⟩
      exact hdeclared type kind code hget
    exact ⟨fun id r hr => hholds r ((hblock id).loops r hr),
      fun first r hr => hholds r ((chain_alike asks_of_round fun k _ => hblock k).loops r hr),
      fun r hr => hholds r ((programFrom_alike asks_of_round hblock).loops r hr)⟩

/-! ### A tangle -/

/-- The body of the start leads round, and the print beside it is plugged into itself. -/
def tangledWorkspace : Workspace where
  blocks := .ofList [
    ("start", { type := "start", inputs := .ofList [("DO", "first")] }),
    ("first", { type := "print", next := some "second", parent := some "start" }),
    ("second", { type := "print", next := some "first", parent := some "first" }),
    ("self", { type := "print", inputs := .ofList [("X", "self")], parent := some "self" })]

def tangledGenerator : Generator where
  settings := {}
  vocabulary := printVocabulary
  instances := .ofSettings {}
  workspace := tangledWorkspace

theorem tangledGenerator_loops :
    (tangledGenerator.program.loop? [] = some "first" ∧
      Relation.TransGen tangledWorkspace.Holds "first" "first") ∧
    ((tangledGenerator.block "self").loop? [] = some "self" ∧
      Relation.TransGen tangledWorkspace.Holds "self" "self") := by
  have hdeclared := Vocabulary.get?_ne_hosted (v := printVocabulary) (by decide +kernel)
  obtain ⟨-, -, hloops⟩ := generation_terminates tangledGenerator
  obtain ⟨hblock, -, hprogram⟩ := hloops hdeclared
  have hself : (tangledGenerator.block "self").loop? [] = some "self" := by decide +kernel
  have hfirst : tangledGenerator.program.loop? [] = some "first" := by decide +kernel
  exact ⟨⟨hfirst, hprogram "first" hfirst⟩, hself, hblock "self" "self" hself⟩

end Generator

end BlockProgram
