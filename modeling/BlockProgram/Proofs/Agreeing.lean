import BlockProgram.Proofs.Compiling

/-!
# Generators that agree

Two generators agree on a part of their blocks when they see the same there and no
link leads out of it. The code of a block of that part is then the same for both,
a failure included, however many other blocks there are. Host scripts may look at
anything and are left out.
-/
namespace BlockProgram

namespace Generation

variable {α β : Type} {busy : List BlockId}

/-- Both generations end alike and leave the busy blocks as they were. -/
def Same (x y : Generation α) (busy : List BlockId) : Prop :=
  x.start busy = y.start busy ∧ (x.start busy).2 = busy

lemma Same.pure (a : α) : (pure a : Generation α).Same (pure a) busy := ⟨rfl, rfl⟩

lemma Same.throw (failure : Failure) : (throw failure : Generation α).Same (throw failure) busy :=
  ⟨rfl, rfl⟩

lemma Same.bind {x y : Generation α} {f f' : α → Generation β} (hx : x.Same y busy)
    (hf : ∀ a, (f a).Same (f' a) busy) : (x >>= f).Same (y >>= f') busy := by
  obtain ⟨heq, hbusy⟩ := hx
  unfold Same
  rw [start_bind, start_bind, ← heq]
  rcases hstart : x.start busy with ⟨result, after⟩
  rw [hstart] at hbusy
  obtain rfl : after = busy := hbusy
  cases result with
  | ok a => exact hf a
  | error failure => exact ⟨rfl, rfl⟩

lemma Same.guarded {id : BlockId} {body body' : Generation α}
    (h : id ∉ busy → body.Same body' (id :: busy)) :
    (guarded id body).Same (guarded id body') busy := by
  unfold Same
  rw [start_guarded, start_guarded]
  by_cases hid : id ∈ busy
  · rw [if_pos hid, if_pos hid]
    exact ⟨rfl, rfl⟩
  · obtain ⟨heq, hbusy⟩ := h hid
    rw [if_neg hid, if_neg hid, ← heq, hbusy, List.erase_cons_head]
    exact ⟨rfl, rfl⟩

end Generation

/-- Where every type has a definition, no type has a script. -/
lemma Vocabulary.get?_ne_hosted {v : Vocabulary}
    (h : ∀ e ∈ v.types.entries, e.2.definition?.isSome = true) (type : String) (kind : BlockKind)
    (code : HostCode) : v.get? type ≠ some (.hosted kind code) := by
  intro hget
  cases h _ ((Table.get?_eq_some_iff _ _ _).mp hget)

/-- A reference stands for the same code where the block it leads to has the same type and,
if that constructs instances, the same name. -/
lemma InstanceIndex.resolve?_of_provider (x : InstanceIndex) {w w' : Workspace} {value : String}
    (htype : ∀ r, Reference.decode? value = some r → w'.type? r.block = w.type? r.block)
    (hname : ∀ r c, Reference.decode? value = some r → w.type? r.block = some r.type →
      x.get? r.type = some c → w'.field? r.block c.nameField = w.field? r.block c.nameField) :
    x.resolve? w' value = x.resolve? w value := by
  unfold resolve?
  cases hr : Reference.decode? value with
  | none => rfl
  | some r =>
    simp only [Option.bind_eq_bind, Option.bind_some, htype r hr]
    cases hblock : w.type? r.block with
    | none => rfl
    | some type =>
      rw [Option.bind_some, Option.bind_some]
      by_cases hsame : type = r.type
      · cases hc : x.get? r.type with
        | none => rfl
        | some c => simp only [Option.bind_some, hname r c hr (hsame ▸ hblock) hc]
      · simp [hsame]

namespace Generator

open Generation

/-- The code of a field depends on its value and on what that refers to. -/
lemma fieldCode_congr {g : Generator} {w' : Workspace} {id : BlockId} {a : Argument}
    (hfield : w'.field? id a.name = g.workspace.field? id a.name)
    (hresolve : ∀ system value, a.kind = .instances system →
      g.workspace.field? id a.name = some value →
      g.instances.resolve? w' value = g.instances.resolve? g.workspace value) :
    ({ g with workspace := w' } : Generator).fieldCode id a = g.fieldCode id a := by
  unfold fieldCode
  dsimp only
  rw [hfield]
  cases hkind : a.kind with
  | instances system =>
    cases hvalue : g.workspace.field? id a.name with
    | none => rfl
    | some value => exact congrArg (Option.getD · value) (hresolve system value hkind hvalue)
  | text initial => rfl
  | number initial least most => rfl
  | checkbox checked => rfl
  | choice choices => rfl
  | value check order => rfl
  | statement check => rfl

/-- On the blocks in `S` both generators see the same types, links, fields and disabled
blocks; the links and fields of disabled blocks other than `next` do not matter. -/
structure Agrees (g g' : Generator) (S : BlockId → Prop) : Prop where
  settings : g'.settings = g.settings
  vocabulary : g'.vocabulary = g.vocabulary
  declared : ∀ type kind code, g.vocabulary.get? type ≠ some (.hosted kind code)
  closed : ∀ id k, S id → g.workspace.Holds id k → S k
  type : ∀ id, S id → g'.workspace.type? id = g.workspace.type? id
  disabled : ∀ id, S id → g'.workspace.isDisabled id = g.workspace.isDisabled id
  next : ∀ id, S id → g'.workspace.next? id = g.workspace.next? id
  target : ∀ id input, S id → g.workspace.isDisabled id = false →
    g'.workspace.target? id input = g.workspace.target? id input
  field : ∀ id d a, S id → g.workspace.isDisabled id = false →
    g.vocabulary.definitionOf? g.workspace id = some d → a ∈ d.args →
    g'.fieldCode id a = g.fieldCode id a

namespace Agrees

variable {g g' : Generator} {S : BlockId → Prop} {block block' : BlockId → Generation Code}
  {id : BlockId} {busy : List BlockId}

/-! ### Steps of the generator -/

lemma operand_same (h : Agrees g g' S) (hid : S id) (hen : g.workspace.isDisabled id = false)
    (hblock : ∀ k, S k → g.workspace.isDisabled k = false → (block k).Same (block' k) busy)
    (input : String) (order : Precedence) :
    (g.operand block id input order).Same (g'.operand block' id input order) busy := by
  unfold Generator.operand
  rw [h.target id input hid hen, h.settings]
  cases htarget : g.workspace.target? id input with
  | none => exact .pure _
  | some target =>
    have hS : S target := h.closed id target hid ⟨.input input, htarget⟩
    dsimp only
    rw [h.disabled target hS]
    split
    · exact .pure _
    · next hdisabled =>
      refine (hblock target hS (by simpa using hdisabled)).bind fun code => ?_
      cases code with
      | value text inner => exact .pure _
      | statement text => exact .throw _

lemma link_same (h : Agrees g g' S) (hid : S id)
    (hblock : ∀ k, S k → g.workspace.isDisabled k = false → (block k).Same (block' k) busy) :
    (g.link block id).Same (g'.link block' id) busy := by
  unfold Generator.link
  rw [h.disabled id hid]
  split
  · exact .pure _
  · next hdisabled =>
    refine (hblock id hid (by simpa using hdisabled)).bind fun code => ?_
    cases code with
    | statement text => exact .pure _
    | value text inner => exact .throw _

lemma links_same (h : Agrees g g' S) {ids : List BlockId} (hids : ∀ id ∈ ids, S id)
    (hblock : ∀ k, S k → g.workspace.isDisabled k = false → (block k).Same (block' k) busy) :
    (g.links block ids).Same (g'.links block' ids) busy := by
  induction ids with
  | nil => exact .pure _
  | cons id rest ih =>
    rw [List.forall_mem_cons] at hids
    exact (h.link_same hids.1 hblock).bind fun text => (ih hids.2).bind fun more => .pure _

/-- The part on which they agree cannot be left by going on to the next block. -/
lemma mem_of_inChain (h : Agrees g g' S) {first k : BlockId} (hfirst : S first)
    (hk : g.workspace.InChain first k) : S k := by
  induction hk with
  | refl => exact hfirst
  | tail _ hnext ih => exact h.closed _ _ ih ⟨.next, hnext⟩

lemma chain_eq (h : Agrees g g' S) {first : BlockId} (hfirst : S first) :
    g'.workspace.chain first = g.workspace.chain first := by
  have hroom (w : Workspace) : Trail.Room w.next? w.ids (w.size + 1) [] := by
    have hsize : w.size = w.ids.length := w.blocks.length_keys.symm
    rw [hsize]
    exact Trail.Room.start fun a b => w.mem_ids_of_next?
  exact Trail.walk_congr (hroom _) (hroom _) fun k hk => h.next k (h.mem_of_inChain hfirst hk)

lemma chain_same (h : Agrees g g' S) {first : BlockId} (hfirst : S first)
    (hblock : ∀ k, S k → g.workspace.isDisabled k = false → (block k).Same (block' k) busy) :
    (g.chain block first).Same (g'.chain block' first) busy := by
  unfold Generator.chain
  rw [h.chain_eq hfirst]
  have hpoints (k : BlockId) (hk : k ∈ (g.workspace.chain first).points) : S k :=
    h.mem_of_inChain hfirst (Trail.reaches_of_mem_walk hk)
  refine (h.links_same hpoints hblock).bind fun text => ?_
  split
  · exact .throw _
  · exact .pure _

lemma body_same (h : Agrees g g' S) (hid : S id) (hen : g.workspace.isDisabled id = false)
    (hblock : ∀ k, S k → g.workspace.isDisabled k = false → (block k).Same (block' k) busy)
    (input : String) : (g.body block id input).Same (g'.body block' id input) busy := by
  unfold Generator.body
  rw [h.target id input hid hen, h.settings]
  cases htarget : g.workspace.target? id input with
  | none => exact .pure _
  | some first =>
    have hS : S first := h.closed id first hid ⟨.input input, htarget⟩
    exact (h.chain_same hS hblock).bind fun text => .pure _

lemma fragments_same (h : Agrees g g' S) (hid : S id) (hen : g.workspace.isDisabled id = false)
    (hblock : ∀ k, S k → g.workspace.isDisabled k = false → (block k).Same (block' k) busy)
    (template : String) {args : List Argument}
    (hfield : ∀ a ∈ args, g'.fieldCode id a = g.fieldCode id a) :
    (g.fragments block id template args).Same (g'.fragments block' id template args) busy := by
  induction args with
  | nil => exact .pure _
  | cons a rest ih =>
    rw [List.forall_mem_cons] at hfield
    have hfragment : (g.fragment block id a).Same (g'.fragment block' id a) busy := by
      unfold fragment
      split
      · exact h.operand_same hid hen hblock a.name _
      · exact h.body_same hid hen hblock a.name
      · rw [hfield.1]
        exact .pure _
    unfold Generator.fragments
    split
    · exact hfragment.bind fun text => (ih hfield.2).bind fun more => .pure _
    · exact ih hfield.2

lemma codeOf_same (h : Agrees g g' S) (hid : S id) (hen : g.workspace.isDisabled id = false)
    (hblock : id ∈ g.workspace.ids → id ∈ g'.workspace.ids → ∀ k, S k →
      g.workspace.isDisabled k = false → (block k).Same (block' k) busy) :
    (g.codeOf block id).Same (g'.codeOf block' id) busy := by
  have htype' := h.type id hid
  unfold Generator.codeOf
  rw [htype', h.vocabulary]
  cases htype : g.workspace.type? id with
  | none => exact .throw _
  | some type =>
    have hsame := hblock (Workspace.mem_ids_of_type? htype)
      (Workspace.mem_ids_of_type? (htype'.trans htype))
    dsimp only
    cases hget : g.vocabulary.get? type with
    | none => exact .throw _
    | some r =>
      cases r with
      | hosted kind code => exact absurd hget (h.declared type kind code)
      | declared library imports d =>
        have hd : g.vocabulary.definitionOf? g.workspace id = some d := by
          simp [Vocabulary.definitionOf?, Vocabulary.definition?, htype, hget,
            Registration.definition?]
        dsimp only
        cases d.code with
        | none => exact .throw _
        | some code =>
          have hfields (a : Argument) (ha : a ∈ d.args) : g'.fieldCode id a = g.fieldCode id a :=
            h.field id d a hid hen hd ha
          exact (h.fragments_same hid hen hsame code hfields).bind fun filled => .pure _

/-! ### Blocks and programs -/

/-- As long as there is room, the depth to which blocks are followed does not matter. -/
theorem blockWithin_same (h : Agrees g g' S) {depth depth' : Nat}
    (hroom : Room g.workspace depth busy) (hroom' : Room g'.workspace depth' busy) (hid : S id)
    (hen : g.workspace.isDisabled id = false) :
    (g.blockWithin depth id).Same (g'.blockWithin depth' id) busy := by
  induction depth generalizing depth' busy id with
  | zero => exact absurd hroom.pos (Nat.lt_irrefl 0)
  | succ depth ih =>
    cases depth' with
    | zero => exact absurd hroom'.pos (Nat.lt_irrefl 0)
    | succ depth' =>
      refine .guarded fun hbusy => h.codeOf_same hid hen fun hlive hlive' k hk henk => ?_
      exact ih (hroom.push hbusy hlive) (hroom'.push hbusy hlive') hk henk

theorem block_same (h : Agrees g g' S) (hid : S id) (hen : g.workspace.isDisabled id = false) :
    (g.block id).Same (g'.block id) [] :=
  h.blockWithin_same (Room.start _) (Room.start _) hid hen

lemma topCode_same (h : Agrees g g' S) (hid : S id)
    (hblock : ∀ k, S k → g.workspace.isDisabled k = false → (block k).Same (block' k) busy) :
    (g.topCode block id).Same (g'.topCode block' id) busy := by
  unfold Generator.topCode
  rw [h.disabled id hid, h.type id hid, h.vocabulary]
  split
  · exact .pure _
  · cases g.workspace.type? id with
    | none => exact .throw _
    | some type =>
      dsimp only
      cases g.vocabulary.get? type with
      | none => exact .throw _
      | some r =>
        dsimp only
        split
        · rw [map_eq_pure_bind, map_eq_pure_bind]
          exact (h.chain_same hid hblock).bind fun text => .pure _
        · exact .pure _

lemma topCodes_same (h : Agrees g g' S) {ids : List BlockId} (hids : ∀ id ∈ ids, S id)
    (hblock : ∀ k, S k → g.workspace.isDisabled k = false → (block k).Same (block' k) busy) :
    (g.topCodes block ids).Same (g'.topCodes block' ids) busy := by
  induction ids with
  | nil => exact .pure _
  | cons id rest ih =>
    rw [List.forall_mem_cons] at hids
    exact (h.topCode_same hids.1 hblock).bind fun text => (ih hids.2).bind fun more => .pure _

/-- Programs agree if the blocks at the top yield the same code and the same libraries are
in use. -/
theorem programFrom_same (h : Agrees g g' S) (himports : g'.imports = g.imports)
    (htops : (g.topCodes block g.workspace.topBlocks).Same
      (g'.topCodes block' g'.workspace.topBlocks) busy) :
    (g.programFrom block).Same (g'.programFrom block') busy := by
  have hheader : g'.headerText = g.headerText := by rw [headerText, headerText, h.settings]
  have himport : g'.importText = g.importText := by rw [importText, importText, himports]
  unfold Generator.programFrom
  rw [hheader, himport]
  exact htops.bind fun roots => .pure _

end Agrees

end Generator

end BlockProgram
