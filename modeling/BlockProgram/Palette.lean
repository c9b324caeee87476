import BlockProgram.Catalog
import BlockProgram.Library.Reading
import BlockProgram.Vocabulary

/-!
# Palettes

The palette shows the block types of all libraries, by category. Libraries of
one category share it: the first decides how it looks, and all add their
entries. Categories nest under the parents they name, and are ordered by
priority and then by loading.
-/
namespace BlockProgram

namespace Palette

inductive Entry where
  | block (type : String)
  | label (text : String)
  | separator (gap : Option Nat)
  deriving DecidableEq, Repr

/-- A category before it is nested. -/
structure Section where
  id : String
  name : String
  style : Option Style := none
  description : Option String := none
  docsUrl : Option String := none
  /-- The part of the editor that fills in the category. -/
  custom : Option String := none
  priority : Option Int := none
  loadIndex : Nat
  parent : Option String := none
  entries : List Entry := []
  deriving DecidableEq, Repr

/-- A category with those nested in it. -/
inductive Category where
  | node (head : Section) (children : List Category)

namespace Category

def head : Category → Section
  | node head _ => head

def children : Category → List Category
  | node _ children => children

end Category

/-! ### Merging -/

/-- What is shown of an item. -/
def Entry.ofItem? : Item → Option Entry
  | .block d => if d.hidden then none else some (.block d.type)
  | .label text => some (.label text)
  | .separator gap => some (.separator gap)

namespace Section

def ofDocument (doc : Document) (loadIndex : Nat) : Section where
  id := doc.category
  name := doc.name
  style := doc.style
  description := doc.description
  docsUrl := doc.docsUrl
  custom := match doc.body with
    | .custom name => some name
    | .contents _ => none
  priority := doc.priority
  loadIndex := loadIndex
  parent := doc.parent
  entries := doc.body.items.filterMap Entry.ofItem?

/-- Stands for a parent that no library defines. -/
def standIn (id : String) (loadIndex : Nat) : Section where
  id := id
  name := id
  loadIndex := loadIndex

/-- Adds an entry, unless the block or the label is there already. -/
def push (entries : List Entry) : Entry → List Entry
  | .separator gap => entries ++ [.separator gap]
  | e => if entries.contains e then entries else entries ++ [e]

/-- Adds the entries of a later library, if the category shows entries at all. -/
def merge (s : Section) (later : List Entry) : Section :=
  if s.custom.isSome then s else { s with entries := later.foldl push s.entries }

def blockTypes (s : Section) : List String :=
  s.entries.filterMap fun
    | .block type => some type
    | _ => none

end Section

/-- Adds a library to the categories known so far. -/
def addDocument (sections : Table Section) (doc : Document) (loadIndex : Nat) : Table Section :=
  let new := Section.ofDocument doc loadIndex
  if sections.contains new.id then sections.modify new.id (·.merge new.entries)
  else sections.insert new.id new

/-! ### Nesting -/

/-- Adds a stand-in for every parent that is missing. -/
def addParents (sections : Table Section) : Table Section :=
  sections.values.foldl
    (fun all s => match s.parent with
      | some parent =>
        if all.contains parent then all else all.insert parent (.standIn parent s.loadIndex)
      | none => all)
    sections

def parent? (sections : Table Section) (id : String) : Option String :=
  (sections.get? id).bind (·.parent)

/-- The parents of a category lead back to it. -/
def leadsBack (sections : Table Section) (id : String) : Bool :=
  (Trail.follow (parent? sections) sections.size id).repeats == some id

/-- The category that one is shown in; none when it stands at the top. -/
def host? (sections : Table Section) (s : Section) : Option String :=
  if leadsBack sections s.id then none else s.parent

/-- Those with a priority first, by priority, then by loading. -/
def before (a b : Section) : Bool :=
  match a.priority, b.priority with
  | some p, some q => p < q || p == q && a.loadIndex ≤ b.loadIndex
  | some _, none => true
  | none, some _ => false
  | none, none => a.loadIndex ≤ b.loadIndex

/-- The categories shown in one place, in order. -/
def level (sections : Table Section) (host : Option String) : List Section :=
  (sections.values.filter fun s => host? sections s == host).mergeSort before

/-- A category with all below it, at most as deep as there are categories. -/
def nest (sections : Table Section) : Nat → Section → Category
  | 0, s => .node s []
  | depth + 1, s => .node s ((level sections (some s.id)).map (nest sections depth))

end Palette

/-- The top categories, in order. -/
structure Palette where
  categories : List Palette.Category := []

namespace Palette

def ofSections (sections : Table Section) : Palette :=
  let all := addParents sections
  ⟨(level all none).map (nest all all.size)⟩

/-! ### Views -/

mutual

/-- The category and all below it, from the top down. -/
def Category.flatten : Category → List Category
  | .node head children => .node head children :: flattenAll children

def flattenAll : List Category → List Category
  | [] => []
  | c :: rest => c.flatten ++ flattenAll rest

end

def all (p : Palette) : List Category := flattenAll p.categories

def category? (p : Palette) (id : String) : Option Category :=
  p.all.find? (·.head.id == id)

def count (p : Palette) : Nat := p.all.length

def Entry.toJson : Entry → Json
  | .block type => .mkObject [("kind", .string "block"), ("type", .string type)]
  | .label text => .mkObject [("kind", .string "label"), ("text", .string text)]
  | .separator gap => .mkObject
      ([("kind", .string "sep")] ++ Json.member "gap" (fun n : Nat => .number (.int n)) gap)

/-- What the editor is told about a category, apart from what it holds. -/
def Section.members (s : Section) : List (String × Json) :=
  let style := match s.style with
    | some (.colour text) => [("colour", .string text)]
    | some (.named name) => [("categorystyle", .string name)]
    | none => []
  [("kind", .string "category"), ("toolboxitemid", .string s.id), ("name", .string s.name)] ++
    style ++ Json.member "description" .string s.description ++
    Json.member "docs" .string s.docsUrl ++ Json.member "custom" .string s.custom

mutual

/-- A category lists its entries and then the categories in it. -/
def Category.toJson : Category → Json
  | .node head children => .mkObject
      (head.members ++ [("contents", .array (head.entries.map Entry.toJson ++ toJsonAll children))])

def toJsonAll : List Category → List Json
  | [] => []
  | c :: rest => c.toJson :: toJsonAll rest

end

def toJson (p : Palette) : Json :=
  .mkObject [("kind", .string "categoryToolbox"), ("contents", .array (toJsonAll p.categories))]

end Palette

/-! ### Loading -/

/-- A library as it is loaded: where it comes from, and its JSON. -/
structure Source where
  name : String
  content : Json

/-- The vocabulary and the categories so far, or the failure that ended the load. -/
structure Loaded where
  vocabulary : Vocabulary
  sections : Except Failure (Table Palette.Section)

namespace Loaded

/-- Localises, reads and registers one library. -/
def addSource (catalog : Catalog) (v : Vocabulary) (sections : Table Palette.Section)
    (index : Nat) (source : Source) : Loaded :=
  match Document.ofJson source.name (catalog.localize source.content) with
  | .error refusal => ⟨v, .error (.refused source.name refusal)⟩
  | .ok doc => match v.registerDocument doc with
    | (v, some failure) => ⟨v, .error failure⟩
    | (v, none) => ⟨v, .ok (Palette.addDocument sections doc index)⟩

/-- Loads libraries in order and stops at the first that fails. -/
def addSources (catalog : Catalog) :
    Vocabulary → Table Palette.Section → Nat → List Source → Loaded
  | v, sections, _, [] => ⟨v, .ok sections⟩
  | v, sections, index, source :: rest =>
    let loaded := addSource catalog v sections index source
    match loaded.sections with
    | .ok sections => addSources catalog loaded.vocabulary sections (index + 1) rest
    | .error failure => ⟨loaded.vocabulary, .error failure⟩

end Loaded

/-- The vocabulary after a load, and the palette unless the load failed. What was
registered before a failure stays. -/
def Palette.assemble (catalog : Catalog) (v : Vocabulary) (sources : List Source) :
    Vocabulary × Except Failure Palette :=
  let loaded := Loaded.addSources catalog v {} 0 sources
  (loaded.vocabulary, loaded.sections.map Palette.ofSections)

end BlockProgram
