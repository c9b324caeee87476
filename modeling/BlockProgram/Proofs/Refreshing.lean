import BlockProgram.Proofs.Indexing

/-!
# A session compiles as one does without it

A session keeps an index of constructors and generates with it. Loads, also failing
ones, and events take the index anew from the vocabulary, while a change of the
vocabulary leaves it behind. As long as there was no such change since the index was
taken, the session compiles every workspace just as a compilation that makes an index
of its own.
-/
namespace BlockProgram

namespace Session

/-- What a host does with a session. -/
inductive Action where
  | load (sources : List Source)
  | handle (w : Workspace) (event : Event) (hasPalette : Bool)
  | translate (catalog : Catalog)
  | register (library : String) (d : Definition)
  | registerHost (type : String) (kind : BlockKind) (code : HostCode)
  | reset

/-- A definition that is rejected leaves the vocabulary as it is. -/
def act (s : Session) : Action → Session
  | .load sources => (s.load sources).1
  | .handle w event hasPalette => (s.handle w event hasPalette).1
  | .translate catalog => { s with catalog }
  | .register library d =>
    { s with vocabulary := (s.vocabulary.register library [] d).toOption.getD s.vocabulary }
  | .registerHost type kind code =>
    { s with vocabulary := s.vocabulary.registerHost type kind code }
  | .reset => { s with vocabulary := {} }

def run (s : Session) (actions : List Action) : Session := actions.foldl act s

/-- Whether the index is that of the vocabulary after an action, given whether it was
before. -/
def Action.fresh (before : Bool) : Action → Bool
  | .load _ => true
  | .handle _ _ _ => true
  | .translate _ => before
  | .register _ _ => false
  | .registerHost _ _ _ => false
  | .reset => false

/-- The vocabulary has not been changed since the last load or event, or at all. -/
def upToDate (actions : List Action) : Bool := actions.foldl Action.fresh true

/-! ### What an action keeps -/

/-- The index has the texts of the settings and, if it is fresh, the constructors of the
vocabulary. -/
structure Indexed (s : Session) (fresh : Bool) : Prop where
  texts : s.instances.clear = .ofSettings s.settings
  constructors : fresh = true → s.instances.constructors = InstanceIndex.constructorsOf s.vocabulary

lemma Indexed.new (settings : Settings) (catalog : Catalog) :
    (new settings catalog).Indexed true where
  texts := rfl
  constructors _ := InstanceIndex.constructorsOf_empty.symm

/-- A load takes the index anew, whether it fails or not. -/
lemma Indexed.load {s : Session} {fresh : Bool} (h : s.Indexed fresh) (sources : List Source) :
    (s.load sources).1.Indexed true := by
  unfold Session.load
  dsimp only
  split
  · exact ⟨h.texts, fun _ => rfl⟩
  · exact ⟨h.texts, fun _ => rfl⟩

theorem Indexed.act {s : Session} {fresh : Bool} (h : s.Indexed fresh) (a : Action) :
    (s.act a).Indexed (a.fresh fresh) := by
  cases a with
  | load sources => exact h.load sources
  | handle w event hasPalette => exact ⟨h.texts, fun _ => rfl⟩
  | translate catalog => exact ⟨h.texts, h.constructors⟩
  | register library d => exact ⟨h.texts, fun hfresh => by cases hfresh⟩
  | registerHost type kind code => exact ⟨h.texts, fun hfresh => by cases hfresh⟩
  | reset => exact ⟨h.texts, fun hfresh => by cases hfresh⟩

/-- The settings are those that the session was made with. -/
lemma settings_act (s : Session) (a : Action) : (s.act a).settings = s.settings := by
  cases a with
  | load sources =>
    unfold act load
    dsimp only
    split <;> rfl
  | _ => rfl

/-! ### Runs -/

theorem Indexed.run {s : Session} {fresh : Bool} (h : s.Indexed fresh) (actions : List Action) :
    (s.run actions).Indexed (actions.foldl Action.fresh fresh) := by
  induction actions generalizing s fresh with
  | nil => exact h
  | cons a rest ih => exact ih (h.act a)

lemma settings_run (s : Session) (actions : List Action) :
    (s.run actions).settings = s.settings := by
  induction actions generalizing s with
  | nil => rfl
  | cons a rest ih => exact (ih (s.act a)).trans (settings_act s a)

lemma Indexed.instances_eq {s : Session} (h : s.Indexed true) :
    s.instances = (InstanceIndex.ofSettings s.settings).rebuild s.vocabulary := by
  have hrebuilt : s.instances = s.instances.clear.rebuild s.vocabulary := by
    rw [InstanceIndex.rebuild, ← h.constructors rfl]
    rfl
  rw [hrebuilt, h.texts]

/-- After any run of loads, events and changes of the vocabulary that ends up to date, the
session compiles every workspace to the program, or with the failure, that a compilation
with its settings and vocabulary alone has. -/
theorem compile_eq_stateless (settings : Settings) (catalog : Catalog) (actions : List Action)
    (h : upToDate actions = true) (w : Workspace) :
    ((new settings catalog).run actions).compile w =
      BlockProgram.compile settings ((new settings catalog).run actions).vocabulary w := by
  have hindexed : ((new settings catalog).run actions).Indexed true := by
    have hrun : Indexed _ (upToDate actions) := (Indexed.new settings catalog).run actions
    rwa [h] at hrun
  have hsettings : ((new settings catalog).run actions).settings = settings :=
    settings_run (new settings catalog) actions
  rw [Session.compile, generator, hindexed.instances_eq, hsettings, BlockProgram.compile]

/-- A library whose only block opens a store, through which its key is at hand. -/
def keyLibrary : Source where
  name := "key.json"
  content := .mkObject [
    ("category", .string "key"),
    ("contents", .array [.mkObject [
      ("type", .string "open"), ("code", .string "open($[NAME]);"),
      ("args", .array [.mkObject [("name", .string "NAME"), ("type", .string "field_input")]]),
      ("constructs", .mkObject [("system", .string "store"), ("virtualInstances", .array [
        .mkObject [("instanceOf", .string "key"), ("name", .string "key"),
          ("connection", .string "$[NAME].key")]])])]])]

/-- A block with a script is registered, libraries are loaded of which the second is none,
then a definition is registered and an event handled. -/
def keyActions : List Action :=
  [.registerHost "note" .statement fun _ _ _ => .done (.statement "note();"),
    .load [keyLibrary, ⟨"broken.json", .null⟩],
    .register "core" { type := "step", code := some "step();", previous := true },
    .handle {} (.delete []) false, .translate {}]

theorem keyActions_compile :
    upToDate keyActions = true ∧
      ((new {} {}).run keyActions).vocabulary.types.keys = ["open", "step"] ∧
      ∀ w, ((new {} {}).run keyActions).compile w =
        BlockProgram.compile {} ((new {} {}).run keyActions).vocabulary w :=
  ⟨rfl, by decide +kernel, compile_eq_stateless {} {} keyActions rfl⟩

end Session

end BlockProgram
