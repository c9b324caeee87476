import BlockProgram.Decimal.Shortest
import BlockProgram.Library.Slots

/-!
# Shapes

The JSON description of a block from which the editor draws it.
-/
namespace BlockProgram

def Json.ofOption {α : Type} (f : α → Json) : Option α → Json
  | some a => f a
  | none => .null

/-- A member for a value that is there. -/
def Json.member {α : Type} (key : String) (f : α → Json) : Option α → List (String × Json)
  | some a => [(key, f a)]
  | none => []

/-- A float, or null where JSON has no number for it. -/
def Json.float (x : Float) : Json :=
  match Decimal.Magnitude.ofBits x.toBits.toNat with
  | .finite _ => .number (.float x)
  | _ => .null

namespace ArgumentKind

/-- The name of the kind in documents and shapes. -/
def typeName : ArgumentKind → String
  | text _ => "field_input"
  | number _ _ _ => "field_number"
  | checkbox _ => "field_checkbox"
  | choice _ => "field_dropdown"
  | instances _ => "field_dropdown"
  | value _ _ => "input_value"
  | statement _ => "input_statement"

def members : ArgumentKind → List (String × Json)
  | text initial => [("text", .string initial)]
  | number initial least most =>
    [("value", .float initial)] ++ Json.member "min" .float least ++ Json.member "max" .float most
  | checkbox checked => [("checked", .bool checked)]
  | choice choices =>
    [("options", .array (choices.map fun c => .array [.string c.label, .string c.value]))]
  | instances system => [("instanceOf", .string system)]
  | value check _ => Json.member "check" .string check
  | statement check => Json.member "check" .string check

end ArgumentKind

def Argument.shape (a : Argument) : Json :=
  .mkObject ([("type", .string a.kind.typeName), ("name", .string a.name)] ++ a.kind.members)

def Style.member : Style → String × Json
  | .colour text => ("colour", .string text)
  | .named name => ("style", .string name)

namespace Definition

/-- What the shape says by itself. -/
def shapeMembers (d : Definition) : List (String × Json) :=
  let slots := Slots.ofMessage d.message d.args
  [("type", .string d.type), ("message0", .string slots.message),
   ("args0", .array (slots.args.map Argument.shape))] ++
  (if d.previous then [("previousStatement", .null)] else []) ++
  (if d.next then [("nextStatement", .null)] else []) ++
  Json.member "output" (fun o : Output => Json.ofOption .string o.check) d.output ++
  (d.style.map Style.member).toList ++
  Json.member "tooltip" .string d.tooltip ++
  Json.member "helpUrl" .string d.helpUrl ++
  Json.member "inputsInline" .bool d.inputsInline

/-- The shape; members handed on from the definition do not replace its own. -/
def shape (d : Definition) : Json :=
  let own := d.shapeMembers
  .mkObject (own ++ d.extra.filter fun m => !own.any (·.1 == m.1))

end Definition

end BlockProgram
