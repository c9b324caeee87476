import BlockProgram.Proofs.Agreeing
import BlockProgram.Proofs.Reaching
import BlockProgram.Proofs.Stacks

/-!
# Unreachable stacks are dead code

After the reachability pass, the stack of a block at the top that is no entry point
consists of disabled blocks. No link leads into it from outside, its blocks need no
imports, and the code of other blocks depends on it only where a field refers to a
virtual instance that it provides. Without such a field the program is the same when
the stack is deleted.
-/
namespace BlockProgram

namespace Workspace

variable {w : Workspace} {t : BlockId}

/-! ### Around the stack of a block at the top -/

/-- No link leads into the stack from outside. -/
lemma Linked.not_inStack_of_holds (h : w.Linked) (htop : w.parent? t = none) {p c : BlockId}
    (hp : ¬ w.InStack t p) (hpc : w.Holds p c) : ¬ w.InStack t c := by
  intro hc
  have hparent := (h.holds_iff_parent? p c).mp hpc
  rcases Relation.ReflTransGen.cases_tail hc with rfl | ⟨p', hp', hholds⟩
  · rw [htop] at hparent
    cases hparent
  · rw [(h.holds_iff_parent? p' c).mp hholds, Option.some.injEq] at hparent
    exact hp (hparent ▸ hp')

lemma get?_delete_of_top (htop : w.parent? t = none) {k : BlockId} (hk : k ∉ (w.delete t).2) :
    (w.delete t).1.get? k = w.get? k := by
  rw [get?_delete, if_neg hk, disconnect, htop]

lemma topBlocks_delete (htop : w.parent? t = none) :
    (w.delete t).1.topBlocks = w.topBlocks.filter fun k => k ∉ (w.delete t).2 := by
  have hparents : ((w.delete t).1.ids.filter fun k => ((w.delete t).1.parent? k).isNone) =
      (w.ids.filter fun k => (w.parent? k).isNone).filter fun k => k ∉ (w.delete t).2 := by
    rw [ids_delete, List.filter_filter, List.filter_filter]
    refine List.filter_congr fun k _ => ?_
    by_cases hk : k ∈ (w.delete t).2
    · simp [hk]
    · have hparent : (w.delete t).1.parent? k = w.parent? k := by
        rw [parent?, parent?, get?_delete_of_top htop hk]
      simp [hk, hparent]
  rw [topBlocks, topBlocks, hparents, filter_byPlace]
  refine byPlace_congr fun k hk => ?_
  rw [place, place, get?_delete_of_top htop (by simpa using (List.mem_filter.mp hk).2)]

/-- No dropdown over instances outside the stack of a block refers to a virtual instance
that a block of the stack provides. -/
def Independent (w : Workspace) (v : Vocabulary) (t : BlockId) : Prop :=
  ∀ id ∈ w.ids, ¬ w.InStack t id → ∀ d, v.definitionOf? w id = some d →
    ∀ field ∈ d.instanceFields, ∀ value r, w.field? id field.1 = some value →
      Reference.decode? value = some r → ¬ w.InStack t r.block

/-! ### After the reachability pass -/

section Swept

variable (settings : Settings) (v : Vocabulary)

lemma links_updateReachability (w : Workspace) (k : BlockId) :
    ((w.updateReachability settings v).1.get? k).map Block.links = (w.get? k).map Block.links :=
  map_get?_updateReachability (fun _ _ => rfl) settings v w k

lemma Linked.updateReachability (h : w.Linked) : (w.updateReachability settings v).1.Linked :=
  h.congr (fun k slot => held?_of_links (links_updateReachability settings v w k) slot)
    fun k => parent?_of_links (links_updateReachability settings v w k)

lemma inStack_updateReachability :
    (w.updateReachability settings v).1.InStack = w.InStack := by
  have hholds : (w.updateReachability settings v).1.Holds = w.Holds := by
    funext p c
    unfold Holds
    simp only [held?_of_links (links_updateReachability settings v w p)]
  rw [InStack, InStack, hholds]

end Swept

/-- After the pass the stack of a block at the top that is no entry point is disabled. -/
lemma Linked.isDisabled_of_inStack (h : w.Linked) (settings : Settings) (v : Vocabulary)
    (ht : t ∈ (w.updateReachability settings v).1.topBlocks)
    (hentry : ∀ type, (w.updateReachability settings v).1.type? t = some type →
      isEntryPoint settings v type = false)
    {k : BlockId} (hk : (w.updateReachability settings v).1.InStack t k) :
    (w.updateReachability settings v).1.isDisabled k = true := by
  have htype : (w.updateReachability settings v).1.type? t = w.type? t :=
    map_get?_updateReachability (fun _ _ => rfl) settings v w t
  have htop : w.parent? t = none := by
    rw [← parent?_of_links (links_updateReachability settings v w t)]
    exact (mem_topBlocks_iff.mp ht).2
  have hlinks (j : BlockId) (hj : j ∈ (w.updateReachability settings v).1.ids) : j ∈ w.ids := by
    have hview := congrArg Option.isSome (links_updateReachability settings v w j)
    rw [Option.isSome_map, Option.isSome_map] at hview
    rw [mem_ids_iff] at hj ⊢
    rwa [← hview]
  rw [inStack_updateReachability] at hk
  have hlive : k ∈ w.ids := by
    rcases Relation.ReflTransGen.cases_tail hk with rfl | ⟨p, -, hholds⟩
    · exact hlinks k (mem_topBlocks_iff.mp ht).1
    · exact mem_ids_of_parent? ((h.holds_iff_parent? p k).mp hholds)
  have hroot : w.root k = t := (root_eq_iff_above htop k).mpr ((h.inStack_iff_above t k).mp hk)
  have hreach : w.isReachable settings v k = false := by
    rw [isReachable, hroot]
    cases ht' : w.type? t with
    | none => rfl
    | some type => exact hentry type (htype.trans ht')
  have hreason := hasReason_updateReachability settings v hlive
  rw [hreach] at hreason
  unfold hasReason at hreason
  unfold isDisabled
  split at hreason
  · next b hb =>
    have hne : b.disabled ≠ [] := List.ne_nil_of_mem (by simpa using hreason)
    simp [hne]
  · cases hreason

end Workspace

/-! ### Code of the other blocks -/

lemma InstanceIndex.resolve?_congr (x : InstanceIndex) {w w' : Workspace} {value : String}
    (h : ∀ r, Reference.decode? value = some r → w'.get? r.block = w.get? r.block) :
    x.resolve? w' value = x.resolve? w value := by
  refine x.resolve?_of_provider (fun r hr => ?_) fun r c hr _ _ => ?_
  · rw [Workspace.type?, Workspace.type?, h r hr]
  · rw [Workspace.field?, Workspace.field?, h r hr]

namespace Generator

variable {g : Generator} {t : BlockId}

/-- The same generator after the deletion of a block. -/
def deleting (g : Generator) (t : BlockId) : Generator :=
  { g with workspace := (g.workspace.delete t).1 }

section Deleting

variable (hlinked : g.workspace.Linked) (ht : t ∈ g.workspace.ids)
  (htop : g.workspace.parent? t = none)
include hlinked ht htop

lemma get?_deleting {k : BlockId} (hk : ¬ g.workspace.InStack t k) :
    (g.deleting t).workspace.get? k = g.workspace.get? k :=
  Workspace.get?_delete_of_top htop (mt (hlinked.mem_delete_iff_inStack ht k).mp hk)

theorem agrees_deleting (hdeclared : ∀ type kind code,
      g.vocabulary.get? type ≠ some (.hosted kind code))
    (hrefs : g.workspace.Independent g.vocabulary t) :
    Agrees g (g.deleting t) fun k => ¬ g.workspace.InStack t k where
  settings := rfl
  vocabulary := rfl
  declared := hdeclared
  closed id k hid hholds := hlinked.not_inStack_of_holds htop hid hholds
  type id hid := by rw [Workspace.type?, Workspace.type?, get?_deleting hlinked ht htop hid]
  disabled id hid := by
    rw [Workspace.isDisabled, Workspace.isDisabled, get?_deleting hlinked ht htop hid]
  next id hid := by rw [Workspace.next?, Workspace.next?, get?_deleting hlinked ht htop hid]
  target id input hid _ := by
    rw [Workspace.target?, Workspace.target?, get?_deleting hlinked ht htop hid]
  field id d a hid _ hd ha := by
    have hvalues : (g.deleting t).workspace.field? id a.name = g.workspace.field? id a.name := by
      rw [Workspace.field?, Workspace.field?, get?_deleting hlinked ht htop hid]
    refine fieldCode_congr hvalues fun system value hkind hvalue => ?_
    have hlive : id ∈ g.workspace.ids := by
      obtain ⟨b, hb, -⟩ := Option.bind_eq_some_iff.mp hvalue
      exact (g.workspace.mem_ids_iff id).mpr (by simp [hb])
    have hfield : (a.name, system) ∈ d.instanceFields :=
      List.mem_filterMap.mpr ⟨a, ha, by simp [hkind]⟩
    refine g.instances.resolve?_congr fun r hr => ?_
    exact get?_deleting hlinked ht htop (hrefs id hlive hid d hd _ hfield value r hvalue hr)

variable (hdisabled : ∀ k, g.workspace.InStack t k → g.workspace.isDisabled k = true)
include hdisabled

/-- Disabled blocks need no imports. -/
lemma imports_deleting : (g.deleting t).imports = g.imports := by
  have hget (k : BlockId) (hk : k ∉ (g.workspace.delete t).2) :
      (g.deleting t).workspace.get? k = g.workspace.get? k := Workspace.get?_delete_of_top htop hk
  have hids : ((g.deleting t).workspace.ids.filter fun k =>
        !(g.deleting t).workspace.isDisabled k) =
      g.workspace.ids.filter fun k => !g.workspace.isDisabled k := by
    have hleft : (g.deleting t).workspace.ids = _ := Workspace.ids_delete g.workspace t
    rw [hleft, List.filter_filter]
    refine List.filter_congr fun k _ => ?_
    by_cases hk : k ∈ (g.workspace.delete t).2
    · simp [hk, hdisabled k ((hlinked.mem_delete_iff_inStack ht k).mp hk)]
    · simp [hk, Workspace.isDisabled, hget k hk]
  unfold Generator.imports
  rw [hids]
  congr 1
  refine List.filterMap_congr fun k hk => ?_
  have hstays : k ∉ (g.workspace.delete t).2 := by
    intro hremoved
    have hoff := hdisabled k ((hlinked.mem_delete_iff_inStack ht k).mp hremoved)
    simp [hoff] at hk
  rw [Workspace.type?, Workspace.type?, hget k hstays]

omit htop in
/-- Of the blocks at the top, those of the stack have no code. -/
lemma topCodes_deleting (hagrees : Agrees g (g.deleting t) fun k => ¬ g.workspace.InStack t k)
    (ids : List BlockId) : (g.topCodes g.block ids).Same ((g.deleting t).topCodes
      (g.deleting t).block (ids.filter fun k => k ∉ (g.workspace.delete t).2)) [] := by
  induction ids with
  | nil => exact .pure _
  | cons id rest ih =>
    by_cases hid : id ∈ (g.workspace.delete t).2
    · have hnone : g.topCode g.block id = pure none := by
        rw [topCode, if_pos (hdisabled id ((hlinked.mem_delete_iff_inStack ht id).mp hid))]
      have hskip : g.topCodes g.block (id :: rest) = g.topCodes g.block rest := by
        rw [topCodes, hnone, pure_bind]
        exact bind_pure _
      rw [hskip, List.filter_cons_of_neg (by simpa using hid)]
      exact ih
    · have hout : ¬ g.workspace.InStack t id := mt (hlinked.mem_delete_iff_inStack ht id).mpr hid
      rw [List.filter_cons_of_pos (by simpa using hid)]
      exact (hagrees.topCode_same hout fun k => hagrees.block_same).bind fun text => ih.bind fun more => .pure _

theorem program_deleting (hdeclared : ∀ type kind code,
      g.vocabulary.get? type ≠ some (.hosted kind code))
    (hrefs : g.workspace.Independent g.vocabulary t) :
    g.program.Same (g.deleting t).program [] := by
  have hagrees := agrees_deleting hlinked ht htop hdeclared hrefs
  refine hagrees.programFrom_same (imports_deleting hlinked ht htop hdisabled) ?_
  have htops : (g.deleting t).workspace.topBlocks = _ := Workspace.topBlocks_delete htop
  rw [htops]
  exact topCodes_deleting hlinked ht hdisabled hagrees _

end Deleting

end Generator

/-- After the reachability pass, a stack below no entry point can be deleted without any
change to the program or to the failure to generate one, unless a dropdown elsewhere refers
to a virtual instance in it. The vocabulary has no host scripts, and links are consistent. -/
theorem unreachable_stack_is_dead (settings : Settings) (v : Vocabulary)
    (hdeclared : ∀ type kind code, v.get? type ≠ some (.hosted kind code))
    {w swept : Workspace} (hlinked : w.Linked)
    (hswept : (w.updateReachability settings v).1 = swept) {t : BlockId}
    (ht : t ∈ swept.topBlocks)
    (hentry : ∀ type, swept.type? t = some type → isEntryPoint settings v type = false)
    (hrefs : swept.Independent v t) :
    compile settings v (swept.delete t).1 = compile settings v swept ∧
      ∀ s : Session, s.vocabulary = v → s.compile (swept.delete t).1 = s.compile swept := by
  obtain ⟨hlive, htop⟩ := Workspace.mem_topBlocks_iff.mp ht
  have hswept' : swept.Linked := hswept ▸ hlinked.updateReachability settings v
  have hdisabled (k : BlockId) (hk : swept.InStack t k) : swept.isDisabled k = true := by
    subst hswept
    exact hlinked.isDisabled_of_inStack settings v ht hentry hk
  have hprogram (g : Generator) (hw : g.workspace = swept) (hv : g.vocabulary = v) :
      ((g.deleting t).program.start []).1 = (g.program.start []).1 := by
    subst hw hv
    rw [(Generator.program_deleting hswept' hlive htop hdisabled hdeclared hrefs).1]
  constructor
  · exact hprogram ⟨settings, v, (InstanceIndex.ofSettings settings).rebuild v, swept⟩ rfl rfl
  · intro s hv
    exact hprogram (s.generator swept) rfl hv

def motorVocabulary : Vocabulary where
  types := .ofList [
    ("start", .declared "core" []
      { type := "start", args := [⟨"DO", .statement none⟩], code := some "$[DO]",
        programStart := true }),
    ("motor", .declared "motors" ["import motor;"]
      { type := "motor", args := [⟨"NAME", .text ""⟩], code := some "open($[NAME]);",
        previous := true, next := true,
        constructs := some ⟨"motor", "motor_", "NAME", [⟨"port", "left", "$[NAME].left"⟩]⟩ }),
    ("use", .declared "ports" []
      { type := "use", args := [⟨"PORT", .instances "port"⟩], code := some "use($[PORT]);",
        previous := true, next := true }),
    ("lamp", .declared "lamps" ["import lamp;"] { type := "lamp", output := some ⟨none⟩ })]

/-- Below the start stand a motor and a block that uses its left port. Beside it, at the
top, a block of a type that nobody knows holds a lamp, which has no code. -/
def strayWorkspace : Workspace :=
  let w := (((({} : Workspace).addAs "s" "start").addAs "m" "motor").addAs "u" "use")
  let w := (w.addAs "x" "unknown").addAs "l" "lamp"
  let w := (w.setField "m" "NAME" "a").setField "u" "PORT" (Reference.encode ⟨"motor", "m", "left"⟩)
  ((w.connectInput "s" "DO" "m").connectNext "m" "u").connectInput "x" "A" "l"

def sweptWorkspace : Workspace := (strayWorkspace.updateReachability {} motorVocabulary).1

theorem sweptWorkspace_delete_stray :
    "x" ∈ sweptWorkspace.topBlocks ∧ sweptWorkspace.Independent motorVocabulary "x" ∧
      compile {} motorVocabulary (sweptWorkspace.delete "x").1 =
        compile {} motorVocabulary sweptWorkspace := by
  have hbuilt : strayWorkspace.Built :=
    (((((((((Relation.ReflTransGen.single (.addAs (by decide +kernel) "start")).tail
      (.addAs (by decide +kernel) "motor")).tail (.addAs (by decide +kernel) "use")).tail
      (.addAs (by decide +kernel) "unknown")).tail (.addAs (by decide +kernel) "lamp")).tail
      (.setField _ "m" "NAME" "a")).tail (.setField _ "u" "PORT" _)).tail
      (.connectInput (by decide +kernel) "DO" (by decide +kernel))).tail
      (.connectNext (by decide +kernel) (by decide +kernel))).tail
      (.connectInput (by decide +kernel) "A" (by decide +kernel))
  have hlinked := hbuilt.linked
  have hdeclared := Vocabulary.get?_ne_hosted (v := motorVocabulary) (by decide +kernel)
  have hx : "x" ∈ sweptWorkspace.topBlocks := by decide +kernel
  have hentry : ∀ type ∈ sweptWorkspace.type? "x",
      isEntryPoint {} motorVocabulary type = false := by decide +kernel
  have hrefs : sweptWorkspace.Independent motorVocabulary "x" := by
    intro id hid _ d hd field hfield value r hvalue hr hstack
    have hall : ∀ id ∈ sweptWorkspace.ids,
        ∀ field ∈ ((motorVocabulary.definitionOf? sweptWorkspace id).map
          Definition.instanceFields).getD [],
        ∀ value ∈ sweptWorkspace.field? id field.1, ∀ r ∈ Reference.decode? value,
          sweptWorkspace.root r.block ≠ "x" := by decide +kernel
    have hroot := hall id hid field (by simpa [hd] using hfield) value hvalue r hr
    have hswept := hlinked.updateReachability {} motorVocabulary
    have htop : sweptWorkspace.parent? "x" = none := by decide +kernel
    exact hroot ((Workspace.root_eq_iff_above htop _).mpr
      ((hswept.inStack_iff_above _ _).mp hstack))
  exact ⟨hx, hrefs,
    (unreachable_stack_is_dead {} motorVocabulary hdeclared hlinked rfl hx hentry hrefs).1⟩

end BlockProgram
