import BlockProgram.Proofs.Checking
import BlockProgram.Proofs.Reaching

/-!
# An event settles in one pass

The three passes over a workspace write in turn: names, disabling reasons, warnings.
Each leaves nothing to do for a second run of its own, and what a later pass writes is
not read by the earlier ones. So a workspace is at rest after an event, and the same
event handled once more writes nothing.
-/
namespace BlockProgram

open Workspace

namespace InstanceIndex

variable {x : InstanceIndex} {w w' : Workspace}

/-! ### Names at rest -/

/-- If the block is an instance, it has a name, and not the one that stands for none. -/
def Named (x : InstanceIndex) (w : Workspace) (id : BlockId) : Prop :=
  ∀ type c, x.constructorOf? w id = some (type, c) →
    ∃ name, w.field? id c.nameField = some name ∧ name ≠ x.unassigned c

/-- If the block is an instance, it has a name that suits it. -/
def Suited (x : InstanceIndex) (w : Workspace) (id : BlockId) : Prop :=
  ∀ type c, x.constructorOf? w id = some (type, c) →
    ∃ name, w.field? id c.nameField = some name ∧ x.Suits w id type c name

@[simp] lemma constructorOf?_writeField (x : InstanceIndex) (w : Workspace) (id k : BlockId)
    (field value : String) :
    x.constructorOf? (w.writeField id field value) k = x.constructorOf? w k := by
  rw [constructorOf?, writeField, type?_setField]
  rfl

lemma Suited.named {id : BlockId} (h : x.Suited w id) (hsuffix : ¬ IsNumeral x.unassignedSuffix) :
    x.Named w id := by
  intro type c hc
  obtain ⟨name, hname, hs⟩ := h type c hc
  exact ⟨name, hname, hs.assigned hsuffix⟩

lemma Named.congr {id : BlockId} (h : x.Named w id) (hw : SameContent w' w) : x.Named w' id := by
  unfold Named
  rw [hw.constructorOf?, hw.field]
  exact h

lemma Suited.congr {id : BlockId} (h : x.Suited w id) (hw : SameContent w' w) :
    x.Suited w' id := by
  intro type c hc
  rw [hw.constructorOf?] at hc
  obtain ⟨name, hname, hs⟩ := h type c hc
  refine ⟨name, by rwa [hw.field], fun other hne => ?_, hs.assigned⟩
  rw [hw.type, hw.field]
  exact hs.free other hne

lemma autoName_of_named {id : BlockId} (h : x.Named w id) : x.autoName w id = (w, none) := by
  unfold autoName
  cases hc : x.constructorOf? w id with
  | none => rfl
  | some e =>
    obtain ⟨name, hname, hne⟩ := h e.1 e.2 hc
    simp [hname, hne]

lemma constructorOf?_autoName (x : InstanceIndex) (w : Workspace) (id k : BlockId) :
    x.constructorOf? (x.autoName w id).1 k = x.constructorOf? w k := by
  obtain ⟨hauto, -⟩ | ⟨type, c, -, hauto⟩ := x.autoName_cases w id
  · rw [hauto]
  · rw [hauto, constructorOf?_writeField]

lemma named_autoName (hsuffix : ¬ IsNumeral x.unassignedSuffix) (w : Workspace) (id : BlockId) :
    x.Named (x.autoName w id).1 id := by
  obtain ⟨hauto, hnamed⟩ | ⟨type, c, hc, hauto⟩ := x.autoName_cases w id
  · rw [hauto]
    exact hnamed
  · rw [hauto]
    intro type' c' hc'
    rw [constructorOf?_writeField, hc, Option.some.injEq, Prod.mk.injEq] at hc'
    obtain ⟨rfl, rfl⟩ := hc'
    have htype := ((constructorOf?_eq_some_iff x w id type c).mp hc).1
    exact ⟨_, field?_setField_self (w := w.count) htype _ _,
      freshName_ne_of_not_numeral hsuffix w type c⟩

lemma settleName_of_suited {id : BlockId} (hsuffix : ¬ IsNumeral x.unassignedSuffix)
    (h : x.Suited w id) (previous : Option String) :
    x.settleName w id previous = (w, .unchanged) := by
  rw [settleName, autoName_of_named (h.named hsuffix)]
  dsimp only
  split
  · rfl
  · next type c hc =>
    obtain ⟨name, hname, hs⟩ := h type c hc
    have hfree := (isTaken_eq_false_iff w id type c name).mpr hs.free
    simp [hname, hfree]

/-- A suitable name that is written suits its block, and takes no other block's name away. -/
lemma suited_writeField {k id : BlockId} {type : String} {c : Constructor} {name : String}
    (hc : x.constructorOf? w k = some (type, c)) (hs : x.Suits w k type c name)
    (hid : id = k ∨ x.Suited w id) : x.Suited (w.writeField k c.nameField name) id := by
  obtain ⟨htype, hget⟩ := (constructorOf?_eq_some_iff x w k type c).mp hc
  have hself : (w.writeField k c.nameField name).field? k c.nameField = some name :=
    field?_setField_self (w := w.count) htype _ _
  have hother {other : BlockId} (hne : other ≠ k) (field : String) :
      (w.writeField k c.nameField name).field? other field = w.field? other field :=
    field?_setField_of_ne w.count name (.inl hne)
  have htypes (other : BlockId) :
      (w.writeField k c.nameField name).type? other = w.type? other :=
    type?_setField w.count k other c.nameField name
  intro type' c' hc'
  rw [constructorOf?_writeField] at hc'
  by_cases hk : id = k
  · subst hk
    rw [hc, Option.some.injEq, Prod.mk.injEq] at hc'
    obtain ⟨rfl, rfl⟩ := hc'
    refine ⟨name, hself, fun other hne ht => ?_, hs.assigned⟩
    rw [hother hne]
    exact hs.free other hne (htypes other ▸ ht)
  · obtain ⟨name', hname', hs'⟩ := hid.resolve_left hk type' c' hc'
    refine ⟨name', (hother hk _).trans hname', fun other hne ht => ?_, hs'.assigned⟩
    rw [htypes] at ht
    by_cases hok : other = k
    · -- The name just written is free, so it is not that of another block of the type.
      subst hok
      obtain ⟨htype', hget'⟩ := (constructorOf?_eq_some_iff x w id type' c').mp hc'
      obtain rfl : type = type' := Option.some.inj (htype.symm.trans ht)
      obtain rfl : c = c' := Option.some.inj (hget.symm.trans hget')
      rw [hself]
      intro heq
      exact hs.free id hk htype' (heq ▸ hname')
    · rw [hother hok]
      exact hs'.free other hne ht

lemma suited_settleName (w : Workspace) {k id : BlockId} (hid : id = k ∨ x.Suited w id) :
    x.Suited (x.settleName w k none).1 id := by
  obtain ⟨hkept, hk⟩ | ⟨type, c, name, hc, hs, hwritten⟩ :=
    x.settleName_cases w k none fun _ _ _ _ hnone => by cases hnone
  · rw [hkept]
    rcases hid with rfl | hid
    · exact hk
    · exact hid
  · rw [hwritten]
    exact suited_writeField hc hs hid

/-- The blocks of a batch have names that suit them after the last of them is settled,
those that collide with one another too. -/
theorem suited_nameCreated (w : Workspace) {ids : List BlockId} {id : BlockId}
    (hid : id ∈ ids ∨ x.Suited w id) : x.Suited (Session.nameCreated x w ids).1 id := by
  induction ids generalizing w with
  | nil => exact hid.resolve_left List.not_mem_nil
  | cons k rest ih =>
    rw [List.mem_cons, or_assoc, or_left_comm] at hid
    rw [Session.nameCreated]
    split
    · exact ih _ (hid.imp_right (suited_settleName w))
    · next hk =>
      refine ih _ (hid.imp_right fun h => h.elim ?_ fun hsuited => hsuited)
      rintro rfl type c hc
      rw [isConstructor, hc] at hk
      cases hk rfl

theorem nameCreated_of_suited (hsuffix : ¬ IsNumeral x.unassignedSuffix) {ids : List BlockId}
    (h : ∀ id ∈ ids, x.Suited w id) :
    (Session.nameCreated x w ids).1 = w ∧
      ∀ e ∈ (Session.nameCreated x w ids).2, e.2 = .unchanged := by
  induction ids with
  | nil => exact ⟨rfl, by simp [Session.nameCreated]⟩
  | cons id rest ih =>
    rw [List.forall_mem_cons] at h
    obtain ⟨hw, hnames⟩ := ih h.2
    rw [Session.nameCreated, settleName_of_suited hsuffix h.1]
    split
    · exact ⟨hw, List.forall_mem_cons.mpr ⟨rfl, hnames⟩⟩
    · exact ⟨hw, hnames⟩

/-- The naming that an event asks for has been done. -/
def NamingDone (x : InstanceIndex) (w : Workspace) : Event → Prop
  | .create ids => ∀ id ∈ ids, x.Suited w id
  | .change id field _ _ =>
    x.Named w id ∧ ∀ type c, x.constructorOf? w id = some (type, c) → c.nameField ≠ field
  | .move id => x.Named w id
  | .delete _ => True

lemma NamingDone.congr {event : Event} (h : x.NamingDone w event) (hw : SameContent w' w) :
    x.NamingDone w' event := by
  cases event with
  | create ids => exact fun id hid => (h id hid).congr hw
  | delete ids => trivial
  | move id => exact Named.congr h hw
  | change id field old new =>
    refine ⟨h.1.congr hw, ?_⟩
    rw [hw.constructorOf?]
    exact h.2

end InstanceIndex

namespace Event

/-- The event announces that the name of an instance has changed. -/
def Renames (v : Vocabulary) (w : Workspace) : Event → Prop
  | .change id field _ _ =>
    ∃ type c, w.type? id = some type ∧ v.constructor? type = some c ∧ c.nameField = field
  | _ => False

end Event

namespace InstanceIndex

variable {x : InstanceIndex} {v : Vocabulary} {w : Workspace}

lemma fst_nameMoved (x : InstanceIndex) (w : Workspace) (id : BlockId) :
    (Session.nameMoved x w id).1 = (x.autoName w id).1 := by
  unfold Session.nameMoved
  split <;> next heq => rw [heq]

lemma fst_nameChanged {id : BlockId} {field : String}
    (hfield : ∀ type c, x.constructorOf? w id = some (type, c) → c.nameField ≠ field)
    (old : Option String) :
    (Session.nameChanged x w id field old).1 = (x.autoName w id).1 := by
  unfold Session.nameChanged
  split
  · next hnone => rw [autoName, hnone]
  · next type c hc =>
    rw [if_neg (hfield type c hc)]
    split <;> next heq => rw [heq]

theorem namingDone_updateNames (hx : ∀ type, x.get? type = v.constructor? type)
    (hsuffix : ¬ IsNumeral x.unassignedSuffix) {event : Event} (hevent : ¬ event.Renames v w) :
    x.NamingDone (Session.updateNames x w event).1 event := by
  cases event with
  | create ids => exact fun id hid => suited_nameCreated w (.inl hid)
  | delete ids => trivial
  | move id =>
    rw [Session.updateNames, fst_nameMoved]
    exact named_autoName hsuffix w id
  | change id field old new =>
    have hfield (type : String) (c : Constructor) (hc : x.constructorOf? w id = some (type, c)) :
        c.nameField ≠ field := by
      obtain ⟨htype, hget⟩ := (constructorOf?_eq_some_iff x w id type c).mp hc
      exact fun heq => hevent ⟨type, c, htype, hx type ▸ hget, heq⟩
    rw [Session.updateNames, fst_nameChanged hfield]
    refine ⟨named_autoName hsuffix w id, ?_⟩
    rw [constructorOf?_autoName]
    exact hfield

theorem updateNames_of_namingDone (hsuffix : ¬ IsNumeral x.unassignedSuffix) {event : Event}
    (h : x.NamingDone w event) :
    (Session.updateNames x w event).1 = w ∧
      ∀ e ∈ (Session.updateNames x w event).2, e.2 = .unchanged := by
  cases event with
  | create ids => exact nameCreated_of_suited hsuffix h
  | delete ids => simp [Session.updateNames]
  | move id => simp [Session.updateNames, Session.nameMoved, autoName_of_named h]
  | change id field old new =>
    rw [Session.updateNames, Session.nameChanged]
    split
    · simp
    · next type c hc =>
      rw [if_neg (h.2 type c hc), autoName_of_named h.1]
      simp

end InstanceIndex

/-! ### Workspaces at rest -/

lemma Workspace.sameContent_updateReachability (settings : Settings) (v : Vocabulary)
    (w : Workspace) : SameContent (w.updateReachability settings v).1 w :=
  .of_content (ids_updateReachability settings v w)
    fun k => map_get?_updateReachability (fun _ _ => rfl) settings v w k

lemma InstanceIndex.isReachable_checkAll (x : InstanceIndex) (settings : Settings)
    (v : Vocabulary) (w : Workspace) :
    (x.checkAll v w).1.isReachable settings v = w.isReachable settings v :=
  funext (isReachable_congr settings v (x.sameContent_checkAll v w).ids
    fun k => map_get?_checkAll (fun _ _ => rfl) x v w k)

namespace Session

variable {s : Session} {w : Workspace} {event : Event}

/-- Nothing is left to do for an event: the names are given, a block is disabled just
when it is out of reach, and a dropdown has a warning just when its selection is wrong. -/
structure AtRest (s : Session) (w : Workspace) (event : Event) : Prop where
  names : (s.instances.rebuild s.vocabulary).NamingDone w event
  reasons : ∀ id ∈ w.ids, w.hasReason id s.settings.unreachableReason =
    !w.isReachable s.settings s.vocabulary id
  warnings : (s.instances.rebuild s.vocabulary).Warned s.vocabulary w

/-- The later passes disturb nothing that the earlier ones have settled. -/
theorem atRest_handle (hkeyed : s.vocabulary.KeyedByType) (hsound : s.vocabulary.Sound)
    (hsuffix : ¬ IsNumeral s.instances.unassignedSuffix) (hevent : ¬ event.Renames s.vocabulary w)
    (hasPalette : Bool) : s.AtRest (s.handle w event hasPalette).2.1 event := by
  let x := s.instances.rebuild s.vocabulary
  let named := (updateNames x w event).1
  let reached := (named.updateReachability s.settings s.vocabulary).1
  have hreached : SameContent reached named := sameContent_updateReachability _ _ named
  have hchecked := x.sameContent_checkAll s.vocabulary reached
  constructor
  · have hnames := InstanceIndex.namingDone_updateNames (x := x)
      (InstanceIndex.get?_rebuild s.instances hkeyed) hsuffix hevent
    exact hnames.congr (hchecked.trans hreached)
  · intro id hid
    have hid' : id ∈ named.ids := by
      rw [← (hchecked.trans hreached).ids]
      exact hid
    have hdisabled : ((x.checkAll s.vocabulary reached).1.get? id).map Block.disabled =
        (reached.get? id).map Block.disabled :=
      InstanceIndex.map_get?_checkAll (fun _ _ => rfl) x s.vocabulary reached id
    have hreach := x.isReachable_checkAll s.settings s.vocabulary reached
    have hsame := isReachable_updateReachability s.settings s.vocabulary named
    calc _ = reached.hasReason id s.settings.unreachableReason := hasReason_congr hdisabled _
      _ = !named.isReachable s.settings s.vocabulary id :=
        hasReason_updateReachability s.settings s.vocabulary hid'
      _ = _ := by rw [← hsame, ← hreach]; rfl
  · exact x.warned_checkAll hsound reached

/-- A workspace at rest stays as it is. -/
theorem AtRest.handle (h : s.AtRest w event) (hsuffix : ¬ IsNumeral s.instances.unassignedSuffix)
    (hasPalette : Bool) :
    (s.handle w event hasPalette).2.1 = w ∧
      (∀ e ∈ (s.handle w event hasPalette).2.2.names, e.2 = .unchanged) ∧
      (s.handle w event hasPalette).2.2.reachability.changed = 0 := by
  obtain ⟨hnamed, hnames⟩ := InstanceIndex.updateNames_of_namingDone
    (x := s.instances.rebuild s.vocabulary) hsuffix h.names
  obtain ⟨hreached, hchanged⟩ := updateReachability_of_decided s.settings s.vocabulary h.reasons
  have hchecked := InstanceIndex.checkAll_of_warned _ h.warnings
  unfold Session.handle
  dsimp only
  rw [hnamed, hreached, hchecked]
  exact ⟨rfl, hnames, hchanged⟩

/-- The numbers reported are those of the workspace that is left behind. -/
lemma report_handle (s : Session) (w : Workspace) (event : Event) (hasPalette : Bool)
    {w' : Workspace} (hw' : (s.handle w event hasPalette).2.1 = w') :
    (s.handle w event hasPalette).2.2.reachability.reachable =
        w'.ids.countP (w'.isReachable s.settings s.vocabulary) ∧
      (s.handle w event hasPalette).2.2.reachability.unreachable =
        w'.ids.countP (fun id => !w'.isReachable s.settings s.vocabulary id) ∧
      (s.handle w event hasPalette).2.2.invalidSelections =
        (s.instances.rebuild s.vocabulary).wrongSelections s.vocabulary w' := by
  let x := s.instances.rebuild s.vocabulary
  let named := (updateNames x w event).1
  let reached := (named.updateReachability s.settings s.vocabulary).1
  have hchecked : SameContent w' reached := hw' ▸ x.sameContent_checkAll s.vocabulary reached
  have hids : w'.ids = named.ids :=
    hchecked.ids.trans (ids_updateReachability s.settings s.vocabulary named)
  have hreach : w'.isReachable s.settings s.vocabulary =
      named.isReachable s.settings s.vocabulary := by
    rw [← hw']
    exact (x.isReachable_checkAll s.settings s.vocabulary reached).trans
      (isReachable_updateReachability s.settings s.vocabulary named)
  obtain ⟨hreachable, hunreachable⟩ := counts_updateReachability s.settings s.vocabulary named
  rw [hids, hreach, x.wrongSelections_congr s.vocabulary hchecked]
  exact ⟨hreachable, hunreachable, x.invalid_checkAll s.vocabulary reached⟩

lemma unassignedSuffix_load (s : Session) (sources : List Source) :
    (s.load sources).1.instances.unassignedSuffix = s.instances.unassignedSuffix := by
  unfold load
  dsimp only
  split <;> rfl

/-- One pass is enough. After an event, unless it announces a new name for an instance,
the workspace is at rest: handling the event again writes nothing, names nothing, and
reports the same numbers. -/
theorem handle_again (settings : Settings) (catalog : Catalog) (sources : List Source)
    {s s' s'' : Session} {w w' w'' : Workspace} {event : Event} {report report' : EventReport}
    {hasPalette hasPalette' : Bool} (loaded : s = ((new settings catalog).load sources).1)
    (hsuffix : ¬ IsNumeral settings.unassignedSuffix) (hevent : ¬ event.Renames s.vocabulary w)
    (first : s.handle w event hasPalette = (s', w', report))
    (second : s'.handle w' event hasPalette' = (s'', w'', report')) :
    s.AtRest w' event ∧ w'' = w' ∧ (∀ e ∈ report'.names, e.2 = .unchanged) ∧
      report'.reachability.changed = 0 ∧
      report'.reachability.reachable = report.reachability.reachable ∧
      report'.reachability.unreachable = report.reachability.unreachable ∧
      report'.invalidSelections = report.invalidSelections := by
  have hsuffix' : ¬ IsNumeral s.instances.unassignedSuffix := by
    rw [loaded, unassignedSuffix_load]
    exact hsuffix
  have hrest : s.AtRest w' event := by
    have h := atRest_handle (loaded ▸ Vocabulary.keyedByType_load _ _)
      (loaded ▸ Vocabulary.sound_load _ _) hsuffix' hevent hasPalette
    rwa [first] at h
  -- The session has only rebuilt its index, and does so again.
  have hsame : s'.handle w' event hasPalette' = s.handle w' event hasPalette' := by
    obtain rfl : (s.handle w event hasPalette).1 = s' := by rw [first]
    rfl
  rw [hsame] at second
  obtain ⟨hw, hnames, hchanged⟩ := hrest.handle hsuffix' hasPalette'
  obtain ⟨hreachable, hunreachable, hinvalid⟩ := report_handle s w event hasPalette
    (congrArg (·.2.1) first)
  obtain ⟨hreachable', hunreachable', hinvalid'⟩ := report_handle s w' event hasPalette' hw
  rw [first] at hreachable hunreachable hinvalid
  rw [second] at hw hnames hchanged hreachable' hunreachable' hinvalid'
  exact ⟨hrest, hw, hnames, hchanged, hreachable'.trans hreachable.symm,
    hunreachable'.trans hunreachable.symm, hinvalid'.trans hinvalid.symm⟩

/-- A library of two blocks: one opens a store, the other closes the store selected. -/
def closingLibrary : Source where
  name := "store.json"
  content := .mkObject [
    ("category", .string "store"),
    ("contents", .array [
      .mkObject [
        ("type", .string "open"), ("code", .string "open($[NAME]);"),
        ("args", .array [.mkObject [("name", .string "NAME"), ("type", .string "field_input")]]),
        ("constructs", .mkObject [("system", .string "store"), ("prefix", .string "store_")])],
      .mkObject [
        ("type", .string "close"), ("code", .string "close($[STORE]);"),
        ("args", .array [.mkObject [("name", .string "STORE"),
          ("type", .string "field_dropdown"), ("instanceOf", .string "store")]])]])]

/-- Two stores of one name, and a block that closes a third. -/
def pastedStores : Workspace :=
  let w := (({} : Workspace).addAs "b1" "open").setField "b1" "NAME" "a"
  let w := (w.addAs "b2" "open").setField "b2" "NAME" "a"
  (w.addAs "b3" "close").setField "b3" "STORE" "b"

/-- The first pass writes a name, three reasons and a warning, the second nothing. -/
theorem pastedStores_handle_again :
    ∃ s' w' report s'' report',
      ((new {} {}).load [closingLibrary]).1.handle pastedStores (.create ["b1", "b2"]) true =
        (s', w', report) ∧
      w'.writes = 5 ∧ w'.field? "b1" "NAME" = some "store_0" ∧ report.invalidSelections = 1 ∧
      s'.handle w' (.create ["b1", "b2"]) true = (s'', w', report') ∧
      report'.reachability.changed = 0 ∧ report'.invalidSelections = report.invalidSelections := by
  obtain ⟨s', w', report, first⟩ : ∃ s' w' report,
      ((new {} {}).load [closingLibrary]).1.handle pastedStores (.create ["b1", "b2"]) true =
        (s', w', report) := ⟨_, _, _, rfl⟩
  obtain ⟨s'', w'', report', second⟩ : ∃ s'' w'' report',
      s'.handle w' (.create ["b1", "b2"]) true = (s'', w'', report') := ⟨_, _, _, rfl⟩
  have hsuffix : ¬ IsNumeral ({} : Settings).unassignedSuffix := by
    rintro ⟨-, hdigits⟩
    exact absurd (hdigits '?' (by decide)) (by decide)
  have hevent : ¬ (Event.create ["b1", "b2"]).Renames
      ((new {} {}).load [closingLibrary]).1.vocabulary pastedStores := fun h => h
  obtain ⟨-, hw, -, hchanged, -, -, hinvalid⟩ :=
    handle_again {} {} [closingLibrary] rfl hsuffix hevent first second
  rw [hw] at second
  have hwrites := congrArg (·.2.1.writes) first
  have hname := congrArg (·.2.1.field? "b1" "NAME") first
  have hwrong := congrArg (·.2.2.invalidSelections) first
  exact ⟨s', w', report, s'', report', first, hwrites.symm.trans (by decide +kernel),
    hname.symm.trans (by decide +kernel), hwrong.symm.trans (by decide +kernel), second, hchanged,
    hinvalid⟩

end Session

end BlockProgram
