import BlockProgram.Proofs.Settling

/-!
# What an event may touch

Handling an event is a long run of single writes. Each is of one of three kinds: the name
of an instance, the reason for being out of reach, or the warning of a dropdown. All else
in the workspace and in the session stays as it is. In particular, when a new name is
refused because another instance has it, that instance keeps it.
-/
namespace BlockProgram

/-! ### Frames -/

namespace Workspace

/-- The second workspace is the first one, but for the given fields, disabling reasons and
warnings. Fields and warnings are given by a block and a name. -/
structure Frame (fields : Set (BlockId × String)) (reasons : Set String)
    (warnings : Set (BlockId × String)) (w w' : Workspace) : Prop where
  ids : w'.ids = w.ids
  type : w'.type? = w.type?
  parent : w'.parent? = w.parent?
  target : w'.target? = w.target?
  next : w'.next? = w.next?
  field : ∀ id name, (id, name) ∉ fields → w'.field? id name = w.field? id name
  reason : ∀ id reason, reason ∉ reasons → w'.hasReason id reason = w.hasReason id reason
  warning : ∀ id key, (id, key) ∉ warnings → w'.warning? id key = w.warning? id key

namespace Frame

variable {fields fields' warnings warnings' : Set (BlockId × String)}
  {reasons reasons' : Set String} {w w' w'' : Workspace}

lemma refl (w : Workspace) : Frame fields reasons warnings w w :=
  ⟨rfl, rfl, rfl, rfl, rfl, fun _ _ _ => rfl, fun _ _ _ => rfl, fun _ _ _ => rfl⟩

lemma trans (h : Frame fields reasons warnings w w') (h' : Frame fields reasons warnings w' w'') :
    Frame fields reasons warnings w w'' where
  ids := h'.ids.trans h.ids
  type := h'.type.trans h.type
  parent := h'.parent.trans h.parent
  target := h'.target.trans h.target
  next := h'.next.trans h.next
  field id name hnot := (h'.field id name hnot).trans (h.field id name hnot)
  reason id reason hnot := (h'.reason id reason hnot).trans (h.reason id reason hnot)
  warning id key hnot := (h'.warning id key hnot).trans (h.warning id key hnot)

lemma mono (h : Frame fields reasons warnings w w') (hfields : fields ⊆ fields')
    (hreasons : reasons ⊆ reasons') (hwarnings : warnings ⊆ warnings') :
    Frame fields' reasons' warnings' w w' where
  ids := h.ids
  type := h.type
  parent := h.parent
  target := h.target
  next := h.next
  field id name hnot := h.field id name fun hmem => hnot (hfields hmem)
  reason id reason hnot := h.reason id reason fun hmem => hnot (hreasons hmem)
  warning id key hnot := h.warning id key fun hmem => hnot (hwarnings hmem)

end Frame

/-! ### Single writes -/

lemma bind_get?_modify {β : Type} (w : Workspace) (id k : BlockId) {f : Block → Block}
    {view : Block → Option β} (h : k = id → ∀ b, view (f b) = view b) :
    ((w.modify id f).get? k).bind view = (w.get? k).bind view := by
  rw [get?_modify]
  split
  · next hk =>
    cases w.get? k with
    | none => rfl
    | some b => exact h hk b
  · rfl

lemma hasReason_eq_any (w : Workspace) (id : BlockId) (reason : String) :
    w.hasReason id reason = (w.get? id).any fun b => decide (reason ∈ b.disabled) := by
  unfold hasReason
  cases w.get? id <;> simp

/-- A write to one block that keeps its type and links. -/
lemma Frame.write {fields warnings : Set (BlockId × String)} {reasons : Set String}
    (w : Workspace) (id : BlockId) {f : Block → Block}
    (hlinks : ∀ b, (f b).type = b.type ∧ (f b).parent = b.parent ∧ (f b).inputs = b.inputs ∧
      (f b).next = b.next)
    (hfields : ∀ b name, (id, name) ∉ fields → (f b).fields.get? name = b.fields.get? name)
    (hreasons : ∀ b reason, reason ∉ reasons → (reason ∈ (f b).disabled ↔ reason ∈ b.disabled))
    (hwarnings : ∀ b key, (id, key) ∉ warnings → (f b).warnings.get? key = b.warnings.get? key) :
    Frame fields reasons warnings w (w.count.modify id f) where
  ids := ids_modify w.count id f
  type := funext fun k => map_get?_modify w.count id k fun b => (hlinks b).1
  parent := funext fun k => bind_get?_modify w.count id k fun _ b => (hlinks b).2.1
  target := funext₂ fun k name =>
    bind_get?_modify w.count id k fun _ b => by rw [(hlinks b).2.2.1]
  next := funext fun k => bind_get?_modify w.count id k fun _ b => (hlinks b).2.2.2
  field k name hnot := bind_get?_modify w.count id k fun hk b => hfields b name (hk ▸ hnot)
  reason k reason hnot := by
    rw [hasReason_eq_any, hasReason_eq_any, get?_modify, get?_count]
    split
    · cases w.get? k with
      | none => rfl
      | some b => simp [hreasons b reason hnot]
    · rfl
  warning k key hnot := bind_get?_modify w.count id k fun hk b => hwarnings b key (hk ▸ hnot)

lemma frame_writeField (w : Workspace) (id : BlockId) (field value : String) :
    Frame {(id, field)} ∅ ∅ w (w.writeField id field value) := by
  unfold writeField setField
  refine .write w id (fun b => ⟨rfl, rfl, rfl, rfl⟩) (fun b name hnot => ?_)
    (fun _ _ _ => Iff.rfl) fun _ _ _ => rfl
  have hname : name ≠ field := fun h => hnot (by simp [h])
  simp [hname]

lemma frame_disable (w : Workspace) (id : BlockId) (reason : String) (on : Bool) :
    Frame ∅ {reason} ∅ w (w.disable id reason on) := by
  unfold disable
  refine .write w id (fun b => ⟨rfl, rfl, rfl, rfl⟩) (fun _ _ _ => rfl)
    (fun b other hnot => ?_) fun _ _ _ => rfl
  have hother : other ≠ reason := hnot
  cases on <;> simp [hother]

lemma frame_setWarning (w : Workspace) (id : BlockId) (key : String) (text : Option String) :
    Frame ∅ ∅ {(id, key)} w (w.setWarning id key text) := by
  unfold setWarning
  refine .write w id (fun b => ⟨rfl, rfl, rfl, rfl⟩) (fun _ _ _ => rfl)
    (fun _ _ _ => Iff.rfl) fun b other hnot => ?_
  have hother : other ≠ key := fun h => hnot (by simp [h])
  cases text <;> simp [hother]

/-! ### Reachability -/

lemma frame_updateReach (settings : Settings) (v : Vocabulary) (w : Workspace)
    (report : ReachabilityReport) (id : BlockId) :
    Frame ∅ {settings.unreachableReason} ∅ w (updateReach settings v w report id).1 := by
  unfold updateReach
  dsimp only
  split
  · exact frame_disable w id _ _
  · exact .refl w

lemma frame_updateReachability (settings : Settings) (v : Vocabulary) (w : Workspace) :
    Frame ∅ {settings.unreachableReason} ∅ w (w.updateReachability settings v).1 := by
  unfold updateReachability
  generalize w.ids = pending
  generalize ({} : ReachabilityReport) = report
  induction pending generalizing w report with
  | nil => exact .refl w
  | cons id rest ih =>
    rw [List.foldl_cons]
    exact (frame_updateReach settings v w report id).trans (ih _ _)

end Workspace

open Workspace

/-! ### Warnings -/

/-- The dropdowns over instances that the definitions of the blocks declare. -/
def Vocabulary.dropdowns (v : Vocabulary) (w : Workspace) : Set (BlockId × String) :=
  {e | ∃ type d system, w.type? e.1 = some type ∧ v.definition? type = some d ∧
    (e.2, system) ∈ d.instanceFields}

namespace InstanceIndex

lemma mem_dropdowns_of_mem_fieldsOf {v : Vocabulary} {w : Workspace} {id : BlockId}
    {e : String × String} (he : e ∈ fieldsOf v w id) : (id, e.1) ∈ v.dropdowns w := by
  unfold fieldsOf at he
  split at he
  · next d hd =>
    obtain ⟨type, htype, hd⟩ := Option.bind_eq_some_iff.mp hd
    exact ⟨type, d, e.2, htype, hd, he⟩
  · cases he

lemma frame_checkField (x : InstanceIndex) (w : Workspace) (id : BlockId) (field system : String) :
    Frame ∅ ∅ {(id, field)} w (x.checkField w id field system).1 := by
  unfold checkField
  dsimp only
  split
  · exact frame_setWarning w id field _
  · exact .refl w

lemma frame_checkFields (x : InstanceIndex) (id : BlockId) (r : Workspace × Nat)
    {fields : List (String × String)} {warnings : Set (BlockId × String)}
    (hfields : ∀ e ∈ fields, (id, e.1) ∈ warnings) :
    Frame ∅ ∅ warnings r.1 (x.checkFields id r fields).1 := by
  induction fields generalizing r with
  | nil => exact .refl r.1
  | cons e rest ih =>
    rw [List.forall_mem_cons] at hfields
    have hfirst := (x.frame_checkField r.1 id e.1 e.2).mono subset_rfl subset_rfl
      (Set.singleton_subset_iff.mpr hfields.1)
    refine .trans ?_ (ih _ hfields.2)
    exact hfirst

lemma frame_checkAll (x : InstanceIndex) (v : Vocabulary) (w : Workspace) :
    Frame ∅ ∅ (v.dropdowns w) w (x.checkAll v w).1 := by
  have hfold (pending : List BlockId) (r : Workspace × Nat)
      (hr : Frame ∅ ∅ (v.dropdowns w) w r.1) : Frame ∅ ∅ (v.dropdowns w) w
        (pending.foldl (fun r id => x.checkFields id r (fieldsOf v r.1 id)) r).1 := by
    induction pending generalizing r with
    | nil => exact hr
    | cons id rest ih =>
      refine ih _ (hr.trans (x.frame_checkFields id r fun e he => ?_))
      -- The blocks have kept their types, and so the dropdowns are the same.
      have hmem := mem_dropdowns_of_mem_fieldsOf he
      rwa [Vocabulary.dropdowns, hr.type] at hmem
  exact hfold w.ids (w, 0) (.refl w)

end InstanceIndex

/-! ### Names -/

/-- The blocks that an event is about and that are still there. -/
def Event.blocks : Event → List BlockId
  | .create ids => ids
  | .delete _ => []
  | .move id => [id]
  | .change id _ _ _ => [id]

namespace InstanceIndex

/-- The fields with the names of the instances among the given blocks. -/
def nameFields (x : InstanceIndex) (w : Workspace) (ids : List BlockId) : Set (BlockId × String) :=
  {e | e.1 ∈ ids ∧ ∃ type c, x.constructorOf? w e.1 = some (type, c) ∧ c.nameField = e.2}

variable {x : InstanceIndex} {w : Workspace}

lemma frame_writeName {id : BlockId} {type : String} {c : Constructor} {ids : List BlockId}
    (hid : id ∈ ids) (hc : x.constructorOf? w id = some (type, c)) (name : String) :
    Frame (x.nameFields w ids) ∅ ∅ w (w.writeField id c.nameField name) := by
  refine (frame_writeField w id c.nameField name).mono ?_ subset_rfl subset_rfl
  exact Set.singleton_subset_iff.mpr ⟨hid, type, c, hc, rfl⟩

lemma frame_autoName (x : InstanceIndex) (w : Workspace) (id : BlockId) :
    Frame (x.nameFields w [id]) ∅ ∅ w (x.autoName w id).1 := by
  obtain ⟨hkept, -⟩ | ⟨type, c, hc, hwritten⟩ := x.autoName_cases w id
  · rw [hkept]
    exact .refl w
  · rw [hwritten]
    exact frame_writeName (by simp) hc _

lemma frame_settleName (x : InstanceIndex) (w : Workspace) (id : BlockId)
    (previous : Option String) :
    Frame (x.nameFields w [id]) ∅ ∅ w (x.settleName w id previous).1 := by
  obtain ⟨hkept, -⟩ | ⟨type, c, name, hc, ⟨hwritten, -⟩ | ⟨hwritten, -⟩⟩ :=
    x.settleName_outcome w id previous
  · rw [hkept]
    exact .refl w
  · rw [hwritten]
    exact frame_writeName (by simp) hc name
  · rw [hwritten]
    exact frame_writeName (by simp) hc name

lemma nameFields_congr {w' : Workspace} (h : w'.type? = w.type?) (ids : List BlockId) :
    x.nameFields w' ids = x.nameFields w ids := by
  unfold nameFields constructorOf?
  rw [h]

lemma nameFields_mono {ids ids' : List BlockId} (h : ids ⊆ ids') :
    x.nameFields w ids ⊆ x.nameFields w ids' := fun _ he => ⟨h he.1, he.2⟩

lemma frame_nameCreated (x : InstanceIndex) (w : Workspace) (ids : List BlockId) :
    Frame (x.nameFields w ids) ∅ ∅ w (Session.nameCreated x w ids).1 := by
  induction ids generalizing w with
  | nil => exact .refl w
  | cons id rest ih =>
    have hrest {w' : Workspace} (htype : w'.type? = w.type?) :
        Frame (x.nameFields w (id :: rest)) ∅ ∅ w' (Session.nameCreated x w' rest).1 := by
      have hsub : x.nameFields w rest ⊆ x.nameFields w (id :: rest) :=
        nameFields_mono (List.subset_cons_self id rest)
      rw [← nameFields_congr htype] at hsub
      exact (ih w').mono hsub subset_rfl subset_rfl
    rw [Session.nameCreated]
    split
    · have hfirst := x.frame_settleName w id none
      have hsub : x.nameFields w [id] ⊆ x.nameFields w (id :: rest) := nameFields_mono (by simp)
      exact (hfirst.mono hsub subset_rfl subset_rfl).trans (hrest hfirst.type)
    · exact hrest rfl

/-- The naming that an event asks for writes names of the blocks of the event. -/
theorem frame_updateNames (x : InstanceIndex) (w : Workspace) (event : Event) :
    Frame (x.nameFields w event.blocks) ∅ ∅ w (Session.updateNames x w event).1 := by
  cases event with
  | create ids => exact x.frame_nameCreated w ids
  | delete ids => exact .refl w
  | move id =>
    rw [Session.updateNames, fst_nameMoved]
    exact x.frame_autoName w id
  | change id field old new =>
    rw [Session.updateNames]
    unfold Session.nameChanged
    split
    · exact .refl w
    · next type c hc =>
      split
      · exact x.frame_settleName w id old
      · have hauto := x.frame_autoName w id
        split <;> next heq => rwa [heq] at hauto

/-! ### Refused names -/

lemma settleName_reverted {id : BlockId} {previous : Option String} {name : String}
    (h : (x.settleName w id previous).2 = .reverted name) :
    previous = some name ∧ ∃ type c rejected, x.constructorOf? w id = some (type, c) ∧
      w.field? id c.nameField = some rejected ∧ isTaken w id type c rejected = true ∧
      (x.settleName w id previous).1 = w.writeField id c.nameField name := by
  obtain ⟨hkept, -⟩ | ⟨type, c, name', hc,
      ⟨hwritten, -⟩ | ⟨hwritten, hprevious, rejected, hfield, htaken⟩⟩ :=
    x.settleName_outcome w id previous
  · rw [hkept] at h
    cases h
  · rw [hwritten] at h
    cases h
  · rw [hwritten] at h ⊢
    cases h
    exact ⟨hprevious, type, c, rejected, hc, hfield, htaken, rfl⟩

/-- New blocks have no previous names to go back to. -/
lemma not_reverted_nameCreated (x : InstanceIndex) (w : Workspace) (ids : List BlockId)
    (id : BlockId) (name : String) :
    (id, NameChange.reverted name) ∉ (Session.nameCreated x w ids).2 := by
  induction ids generalizing w with
  | nil => exact List.not_mem_nil
  | cons k rest ih =>
    rw [Session.nameCreated]
    split
    · rw [List.mem_cons, not_or]
      refine ⟨fun heq => ?_, ih _⟩
      obtain ⟨hnone, -⟩ := settleName_reverted (congrArg Prod.snd heq).symm
      cases hnone
    · exact ih w

/-- A name goes back to a previous one only when the event is about its block alone and
another instance has the name it was to get. -/
lemma reverted_updateNames {event : Event} {id : BlockId} {name : String}
    (h : (id, NameChange.reverted name) ∈ (Session.updateNames x w event).2) :
    event.blocks = [id] ∧ ∃ type c rejected, x.constructorOf? w id = some (type, c) ∧
      w.field? id c.nameField = some rejected ∧ isTaken w id type c rejected = true ∧
      (Session.updateNames x w event).1 = w.writeField id c.nameField name := by
  cases event with
  | create ids => exact absurd h (x.not_reverted_nameCreated w ids id name)
  | delete ids => cases h
  | move k =>
    rw [Session.updateNames, Session.nameMoved] at h
    split at h <;> simp at h
  | change k field old new =>
    rw [Session.updateNames] at h ⊢
    unfold Session.nameChanged at h ⊢
    split at h
    · cases h
    · split at h
      · next hfield =>
        obtain ⟨rfl, hreverted⟩ := Prod.mk.inj (List.mem_singleton.mp h)
        obtain ⟨-, hrefused⟩ := settleName_reverted hreverted.symm
        rw [if_pos hfield]
        exact ⟨rfl, hrefused⟩
      · split at h <;> simp at h

end InstanceIndex

/-! ### The whole event -/

/-- The fields with the names of the instances that an event is about. -/
def Event.nameFields (v : Vocabulary) (w : Workspace) (event : Event) : Set (BlockId × String) :=
  {e | e.1 ∈ event.blocks ∧ ∃ d ∈ v.definitions, ∃ c, w.type? e.1 = some d.type ∧
    d.constructs = some c ∧ c.nameField = e.2}

lemma InstanceIndex.nameFields_rebuild (x : InstanceIndex) (v : Vocabulary) (w : Workspace)
    (event : Event) : (x.rebuild v).nameFields w event.blocks ⊆ event.nameFields v w := by
  rintro ⟨id, field⟩ ⟨hid, type, c, hc, hfield⟩
  obtain ⟨htype, hget⟩ := (constructorOf?_eq_some_iff _ w id type c).mp hc
  have hmem := List.mem_mergeSort.mp
    ((Table.mem_of_get?_foldl_insert hget).resolve_right (by simp))
  obtain ⟨d, hd, hdeclared⟩ := List.mem_filterMap.mp hmem
  obtain ⟨c', hc', heq⟩ := Option.map_eq_some_iff.mp hdeclared
  cases heq
  exact ⟨hid, d, hd, c, htype, hc', hfield⟩

namespace Session

lemma frame_handle (s : Session) (w : Workspace) (event : Event) (hasPalette : Bool) :
    w.Frame (event.nameFields s.vocabulary w) {s.settings.unreachableReason}
      (s.vocabulary.dropdowns w) (s.handle w event hasPalette).2.1 := by
  let x := s.instances.rebuild s.vocabulary
  let named := (updateNames x w event).1
  let reached := (named.updateReachability s.settings s.vocabulary).1
  have hnamed := x.frame_updateNames w event
  have hreached := frame_updateReachability s.settings s.vocabulary named
  have hchecked := x.frame_checkAll s.vocabulary reached
  have hdropdowns : s.vocabulary.dropdowns reached = s.vocabulary.dropdowns w := by
    rw [Vocabulary.dropdowns, hreached.type, hnamed.type, Vocabulary.dropdowns]
  have hnames := s.instances.nameFields_rebuild s.vocabulary w event
  exact ((hnamed.mono hnames (Set.empty_subset _) (Set.empty_subset _)).trans
    (hreached.mono (Set.empty_subset _) subset_rfl (Set.empty_subset _))).trans
    (hchecked.mono (Set.empty_subset _) (Set.empty_subset _) hdropdowns.subset)

/-- The passes after the naming write no fields. -/
lemma field?_handle (s : Session) (w : Workspace) (event : Event) (hasPalette : Bool) :
    (s.handle w event hasPalette).2.1.field? =
      (updateNames (s.instances.rebuild s.vocabulary) w event).1.field? :=
  ((InstanceIndex.sameContent_checkAll (s.instances.rebuild s.vocabulary) s.vocabulary _).trans
    (sameContent_updateReachability s.settings s.vocabulary _)).field

/-- Handling an event changes the names of the instances that the event is about, the reason
for being out of reach and the warnings of dropdowns over instances, and nothing else. The
session only renews its index. When a new name is refused, it is because another instance has
it; the old name comes back, and the other blocks keep all their fields. -/
theorem handle_touches_own {s s' : Session} {w w' : Workspace} {event : Event}
    {hasPalette : Bool} {report : EventReport}
    (handled : s.handle w event hasPalette = (s', w', report)) :
    s' = { s with instances := s.instances.rebuild s.vocabulary } ∧
      w.Frame (event.nameFields s.vocabulary w) {s.settings.unreachableReason}
        (s.vocabulary.dropdowns w) w' ∧
      ∀ id name, (id, NameChange.reverted name) ∈ report.names →
        ∃ type c rejected, s'.instances.constructorOf? w id = some (type, c) ∧
          w.field? id c.nameField = some rejected ∧ w'.field? id c.nameField = some name ∧
          (∃ holder, holder ≠ id ∧ w.type? holder = some type ∧
            w.field? holder c.nameField = some rejected) ∧
          ∀ holder, holder ≠ id → ∀ field, w'.field? holder field = w.field? holder field := by
  obtain rfl : (s.handle w event hasPalette).1 = s' := by rw [handled]
  obtain rfl : (s.handle w event hasPalette).2.1 = w' := by rw [handled]
  obtain rfl : (s.handle w event hasPalette).2.2 = report := by rw [handled]
  have hframe := s.frame_handle w event hasPalette
  refine ⟨rfl, hframe, fun id name hreverted => ?_⟩
  obtain ⟨hblocks, type, c, rejected, hc, hrejected, htaken, hwritten⟩ :=
    InstanceIndex.reverted_updateNames hreverted
  refine ⟨type, c, rejected, hc, hrejected, ?_, ?_, fun holder hne field => ?_⟩
  · have htype := ((InstanceIndex.constructorOf?_eq_some_iff _ w id type c).mp hc).1
    rw [field?_handle, hwritten]
    exact field?_setField_self (w := w.count) htype _ _
  · by_contra hnone
    have hfree := (InstanceIndex.isTaken_eq_false_iff w id type c rejected).mpr
      fun other hne htype hname => hnone ⟨other, hne, htype, hname⟩
    rw [htaken] at hfree
    cases hfree
  · refine hframe.field holder field fun hmem => hne ?_
    have hholder := hmem.1
    rw [hblocks] at hholder
    exact List.mem_singleton.mp hholder

/-- The second of two stores was called `b` and is to be called `a`, as the first one is. -/
theorem pastedStores_rename_refused :
    ∃ s' w' report, ((new {} {}).load [closingLibrary]).1.handle pastedStores
        (.change "b2" "NAME" (some "b") (some "a")) false = (s', w', report) ∧
      ("b2", NameChange.reverted "b") ∈ report.names ∧ w'.field? "b1" "NAME" = some "a" ∧
      w'.field? "b2" "NAME" = some "b" ∧ w'.type? = pastedStores.type? := by
  obtain ⟨s', w', report, handled⟩ : ∃ s' w' report,
      ((new {} {}).load [closingLibrary]).1.handle pastedStores
        (.change "b2" "NAME" (some "b") (some "a")) false = (s', w', report) := ⟨_, _, _, rfl⟩
  obtain ⟨-, hframe, hrefused⟩ := handle_touches_own handled
  have hnames := congrArg (·.2.2.names) handled
  have hsecond := congrArg (·.2.1.field? "b2" "NAME") handled
  have hreverted : ("b2", NameChange.reverted "b") ∈ report.names := by
    rw [← hnames]
    decide +kernel
  obtain ⟨-, -, -, -, -, -, -, hothers⟩ := hrefused _ _ hreverted
  exact ⟨s', w', report, handled, hreverted,
    (hothers "b1" (by decide) "NAME").trans (by decide +kernel),
    hsecond.symm.trans (by decide +kernel), hframe.type⟩

end Session

end BlockProgram
