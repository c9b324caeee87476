import BlockProgram.Proofs.Naming

/-!
# Instance names stay unique

A session goes in turns: something happens in the editor, and the session handles
the event that announces it. Whatever the turns are, after each of them every
instance has a name that no other instance of its type has.
-/
namespace BlockProgram

/-! ### Turns of the editor -/

/-- A block to be added: under an id of its own or a fresh one, and with the
values that its fields start with. -/
structure NewBlock where
  id : Option BlockId := none
  type : String
  fields : List (String × String) := []

/-- Blocks are plugged together or pulled apart. -/
inductive Rewiring where
  | input (parent : BlockId) (input : String) (child : BlockId)
  | next (previous next : BlockId)
  | off (child : BlockId)

namespace Workspace

def setFields (w : Workspace) (id : BlockId) (fields : List (String × String)) : Workspace :=
  fields.foldl (fun w e => w.setField id e.1 e.2) w

def addNew (w : Workspace) (b : NewBlock) : Workspace × BlockId :=
  let (w, id) := match b.id with
    | some id => (w.addAs id b.type, id)
    | none => w.add b.type
  (w.setFields id b.fields, id)

/-- Adds blocks one after the other; gives their ids. -/
def addEach (w : Workspace) : List NewBlock → Workspace × List BlockId
  | [] => (w, [])
  | b :: rest =>
    let (w, id) := w.addNew b
    let (w, ids) := w.addEach rest
    (w, id :: ids)

def rewire (w : Workspace) : Rewiring → Workspace
  | .input parent input child => w.connectInput parent input child
  | .next previous next => w.connectNext previous next
  | .off child => w.disconnect child

/-- What happens in the editor, and the event by which it is announced: all new
blocks are listed, and a changed field is announced with the value it had. -/
inductive Turn (w : Workspace) : Workspace → Event → Prop
  | create (blocks : List NewBlock) (ids : List BlockId)
      (listed : (w.addEach blocks).2 ⊆ ids) : Turn w (w.addEach blocks).1 (.create ids)
  | change (id : BlockId) (field value : String) (new : Option String) :
      Turn w (w.setField id field value) (.change id field (w.field? id field) new)
  | move (rewirings : List Rewiring) (id : BlockId) : Turn w (rewirings.foldl rewire w) (.move id)
  | delete (id : BlockId) (ids : List BlockId) : Turn w (w.delete id).1 (.delete ids)

end Workspace

/-- The states of a session and an empty workspace after any number of turns. -/
inductive Session.Run (start : Session) : Session → Workspace → Prop
  | start : Run start start {}
  | turn {s : Session} {w w' : Workspace} {event : Event} (run : Run start s w)
      (turn : w.Turn w' event) (hasPalette : Bool) :
      Run start (s.handle w' event hasPalette).1 (s.handle w' event hasPalette).2.1

/-! ### What a turn does to names -/

namespace InstanceIndex.Settled

open Workspace

variable {x : InstanceIndex} {w : Workspace} {pending : List BlockId}

lemma addAs (h : Settled x w pending) (id : BlockId) (type : String) :
    Settled x (w.addAs id type) (id :: pending) := by
  refine (h.mono (List.subset_cons_self id pending)).transfer fun k type' hk htype => ?_
  have hne : k ≠ id := fun heq => hk (heq ▸ List.mem_cons_self)
  have hget : (w.addAs id type).get? k = w.get? k := by rw [get?_addAs, if_neg hne]
  unfold type? field? at *
  rw [hget] at htype ⊢
  exact ⟨htype, fun _ _ => rfl⟩

lemma setFields {id : BlockId} (h : Settled x w pending) (hid : id ∈ pending)
    (fields : List (String × String)) : Settled x (w.setFields id fields) pending := by
  unfold Workspace.setFields
  induction fields generalizing w with
  | nil => exact h
  | cons e rest ih => exact ih (h.setField e.2 fun hnot => absurd hid hnot)

lemma addNew (h : Settled x w pending) (b : NewBlock) :
    Settled x (w.addNew b).1 ((w.addNew b).2 :: pending) := by
  unfold Workspace.addNew
  cases b.id with
  | some id => exact (h.addAs id b.type).setFields (by simp) b.fields
  | none =>
    have hcounted : Settled x { w with lastId := w.freshNumber } pending :=
      h.within (Within.of_content fun _ => rfl)
    exact (hcounted.addAs _ b.type).setFields (by simp [Workspace.add]) b.fields

lemma addEach (h : Settled x w pending) (blocks : List NewBlock) :
    Settled x (w.addEach blocks).1 ((w.addEach blocks).2 ++ pending) := by
  induction blocks generalizing w pending with
  | nil => exact h
  | cons b rest ih =>
    refine (ih (h.addNew b)).mono fun id hid => ?_
    simp only [Workspace.addEach, List.mem_append, List.mem_cons] at hid ⊢
    tauto

lemma rewire (h : Settled x w pending) (rewirings : List Rewiring) :
    Settled x (rewirings.foldl Workspace.rewire w) pending := by
  induction rewirings generalizing w with
  | nil => exact h
  | cons r rest ih =>
    refine ih (h.within (Within.of_content fun k => ?_))
    cases r with
    | input parent input child =>
      exact map_get?_connectInput ignoresLinks_content w parent input child k
    | next previous next => exact map_get?_connectNext ignoresLinks_content w previous next k
    | off child => exact map_get?_disconnect ignoresLinks_content w child k

theorem updateNames {w' : Workspace} {event : Event} (h : Settled x w []) (turn : w.Turn w' event) :
    Settled x (Session.updateNames x w' event).1 [] := by
  cases turn with
  | create blocks ids listed =>
    have hadded := h.addEach blocks
    rw [List.append_nil] at hadded
    exact (hadded.mono listed).nameCreated
  | change id field value new => exact h.nameChanged id field value
  | move rewirings id => exact (h.rewire rewirings).nameMoved id
  | delete id ids => exact h.within (within_delete w id)

/-- The passes that follow the naming change no names. -/
theorem handle {s : Session} {w' : Workspace} {event : Event} (hasPalette : Bool)
    (h : Settled (s.instances.rebuild s.vocabulary) w []) (turn : w.Turn w' event) :
    Settled (s.instances.rebuild s.vocabulary) (s.handle w' event hasPalette).2.1 [] := by
  have hnames := h.updateNames turn
  have hreach := hnames.within (Within.of_content fun k =>
    map_get?_updateReachability (fun _ _ => rfl) s.settings s.vocabulary _ k)
  exact hreach.within (Within.of_content fun k => map_get?_checkAll (fun _ _ => rfl) _ _ _ k)

theorem empty : Settled x {} [] := by
  have hdead (id : BlockId) (type : String) : ({} : Workspace).type? id ≠ some type := by
    intro h
    cases h
  exact ⟨fun _ htype => absurd htype (hdead _ _), fun _ _ _ htype => absurd htype (hdead _ _),
    fun _ htype => absurd htype (hdead _ _)⟩

end InstanceIndex.Settled

/-! ### Runs -/

namespace Session

/-- Events change neither what is loaded nor the settings. -/
lemma Run.unchanged {start s : Session} {w : Workspace} (run : start.Run s w) :
    s.vocabulary = start.vocabulary ∧
      s.instances.unassignedSuffix = start.instances.unassignedSuffix := by
  induction run with
  | start => exact ⟨rfl, rfl⟩
  | turn _ _ _ ih => exact ih

theorem Run.settled {start s : Session} {w : Workspace} (run : start.Run s w) :
    InstanceIndex.Settled (s.instances.rebuild s.vocabulary) w [] := by
  induction run with
  | start => exact InstanceIndex.Settled.empty
  | turn _ turn hasPalette ih => exact ih.handle hasPalette turn

/-- After every event, an instance has a name that no other instance of its type
has, and it is not the name for having none unless that looks like a numbered
name itself. -/
theorem instance_names_unique (settings : Settings) (catalog : Catalog) (sources : List Source)
    {s : Session} {w : Workspace} (run : ((new settings catalog).load sources).1.Run s w)
    (id : BlockId) (type : String) (c : Constructor) (htype : w.type? id = some type)
    (hc : ((new settings catalog).load sources).1.vocabulary.constructor? type = some c) :
    ∃ name, w.field? id c.nameField = some name ∧
      (∀ other, other ≠ id → w.type? other = some type →
        w.field? other c.nameField ≠ some name) ∧
      (¬ IsNumeral settings.unassignedSuffix → name ≠ c.stem ++ settings.unassignedSuffix) := by
  obtain ⟨hvocabulary, hsuffix⟩ := run.unchanged
  have hkeyed := Vocabulary.keyedByType_load (new settings catalog) sources
  have hget : (s.instances.rebuild s.vocabulary).get? type = some c := by
    rw [hvocabulary, InstanceIndex.get?_rebuild _ hkeyed, hc]
  have hset : (s.instances.rebuild s.vocabulary).unassignedSuffix = settings.unassignedSuffix := by
    refine hsuffix.trans ?_
    unfold load
    dsimp only
    split <;> rfl
  have hsettled := run.settled
  obtain ⟨name, hname⟩ := hsettled.named (List.not_mem_nil) htype hget
  refine ⟨name, hname, fun other hne htype' => ?_, fun hnumeral heq => ?_⟩
  · exact hsettled.distinct (List.not_mem_nil) (List.not_mem_nil) hne htype htype' hget hname
  · have hassigned := hsettled.assigned (List.not_mem_nil) htype hget (hset ▸ hnumeral)
    rw [InstanceIndex.unassigned, hset] at hassigned
    exact hassigned (heq ▸ hname)

/-- A library whose only block opens a store and gives it a name. -/
def storeLibrary : Source where
  name := "store.json"
  content := .mkObject [
    ("category", .string "store"), ("name", .string "Store"),
    ("contents", .array [.mkObject [
      ("kind", .string "block"), ("type", .string "open"), ("message", .string "open $[NAME]"),
      ("args", .array [.mkObject [("name", .string "NAME"), ("type", .string "field_input")]]),
      ("constructs", .mkObject [("system", .string "store"), ("prefix", .string "store_"),
        ("field", .string "NAME")])]])]

/-- Two stores pasted with one name end up with different ones. -/
theorem pasted_instances_renamed :
    ∃ s w, ((new {} {}).load [storeLibrary]).1.Run s w ∧
      w.field? "b1" "NAME" = some "store_0" ∧ w.field? "b2" "NAME" = some "a" ∧
      ∀ other, other ≠ "b1" → w.type? other = some "open" →
        w.field? other "NAME" ≠ some "store_0" := by
  let pasted : NewBlock := { type := "open", fields := [("NAME", "a")] }
  have hstart : ((new {} {}).load [storeLibrary]).1.Run ((new {} {}).load [storeLibrary]).1 {} :=
    .start
  have hrun := hstart.turn (.create [pasted, pasted] ["b1", "b2"] (by decide +kernel)) false
  refine ⟨_, _, hrun, by decide +kernel, by decide +kernel, ?_⟩
  obtain ⟨name, hname, hfree, -⟩ := instance_names_unique {} {} [storeLibrary] hrun "b1" "open"
    ⟨"store", "store_", "NAME", []⟩ (by decide +kernel) (by decide +kernel)
  have hstore : name = "store_0" := by
    have : some name = some "store_0" := hname.symm.trans (by decide +kernel)
    exact Option.some.inj this
  exact hstore ▸ hfree

end Session

end BlockProgram
