import BlockProgram.Workspace.Edit

/-!
# Writes to a workspace

What the program itself writes back: names in fields, disabling reasons and
warnings. Every such write is counted, also one to a block that is not there.
-/
namespace BlockProgram.Workspace

def count (w : Workspace) : Workspace := { w with writes := w.writes + 1 }

def writeField (w : Workspace) (id : BlockId) (name value : String) : Workspace :=
  w.count.setField id name value

/-- Sets or lifts a disabling reason. -/
def disable (w : Workspace) (id : BlockId) (reason : String) (on : Bool) : Workspace :=
  w.count.modify id fun b =>
    { b with
      disabled := if on then b.disabled.insert reason else b.disabled.filter (· != reason) }

/-- Sets or clears the warning under a key. -/
def setWarning (w : Workspace) (id : BlockId) (key : String) (text : Option String) :
    Workspace :=
  w.count.modify id fun b =>
    { b with
      warnings := match text with
        | some text => b.warnings.insert key text
        | none => b.warnings.erase key }

end BlockProgram.Workspace
