import BlockProgram.Proofs.Indenting
import BlockProgram.Proofs.Keeping
import BlockProgram.Proofs.Looping

/-!
# Chains compile block by block

The code of a chain is the code of its enabled blocks, one after the other. Each is generated
while the same blocks are busy, as if it stood alone, and ends its last line, unless it has no
code at all. So the chain consists of whole lines, and to indent it is to indent the code of
each block.
-/
namespace BlockProgram

/-- The blocks that are not disabled. -/
def Workspace.enabled (w : Workspace) (ids : List BlockId) : List BlockId :=
  ids.filter fun id => !w.isDisabled id

namespace Generator

open Generation

lemma wholeLines_statementLine (text : String) : Text.WholeLines (statementLine text).toList := by
  unfold statementLine
  split
  · exact .nil
  · exact Text.wholeLines_endLine text

lemma wholeLines_statementLines (ids : List BlockId) (fragment : BlockId → String) :
    ∀ text ∈ ids.map fun b => statementLine (fragment b), Text.WholeLines text.toList := by
  intro text htext
  obtain ⟨b, -, rfl⟩ := List.mem_map.mp htext
  exact wholeLines_statementLine (fragment b)

variable {g : Generator} {block : BlockId → Generation Code} {busy : List BlockId}
  {fragment : BlockId → String}

/-! ### Blocks one after the other -/

lemma link_of_statement {id : BlockId} (h : g.workspace.isDisabled id = false →
      (block id).start busy = (.ok (.statement (fragment id)), busy)) :
    (g.link block id).start busy = (.ok
      (String.join ((g.workspace.enabled [id]).map fun b => statementLine (fragment b))), busy) := by
  unfold link Workspace.enabled
  cases hdisabled : g.workspace.isDisabled id with
  | true =>
    rw [if_pos rfl, List.filter_cons_of_neg (by simp [hdisabled])]
    rfl
  | false =>
    rw [if_neg (by simp), start_bind, h hdisabled, List.filter_cons_of_pos (by simp [hdisabled]),
      List.filter_nil, List.map_singleton, String.join_cons, String.join_nil, String.append_empty]
    rfl

lemma links_of_statements {ids : List BlockId}
    (h : ∀ b ∈ ids, g.workspace.isDisabled b = false →
      (block b).start busy = (.ok (.statement (fragment b)), busy)) :
    (g.links block ids).start busy = (.ok
      (String.join ((g.workspace.enabled ids).map fun b => statementLine (fragment b))), busy) := by
  induction ids with
  | nil => rfl
  | cons id rest ih =>
    rw [List.forall_mem_cons] at h
    have hsplit : g.workspace.enabled (id :: rest) =
        g.workspace.enabled [id] ++ g.workspace.enabled rest := List.filter_append [id] rest
    rw [links, start_bind, link_of_statement h.1]
    dsimp only
    rw [start_bind, ih h.2, hsplit, List.map_append, String.join_append]
    rfl

/-- If blocks one after the other end well, each that is enabled is a statement. -/
lemma statement_of_links (hblock : ∀ k, (block k).Keeps) {ids : List BlockId} {code : String}
    (h : ((g.links block ids).start busy).1 = .ok code) :
    ∀ b ∈ ids, g.workspace.isDisabled b = false →
      ∃ text, (block b).start busy = (.ok (.statement text), busy) := by
  induction ids generalizing code with
  | nil => simp
  | cons id rest ih =>
    obtain ⟨text, hlink, hmore⟩ := (link_keeps hblock id).bind_eq_ok h
    obtain ⟨more, hrest, -⟩ := (links_keeps hblock rest).bind_eq_ok hmore
    rw [List.forall_mem_cons]
    refine ⟨fun henabled => ?_, ih (by rw [hrest])⟩
    have hid : ((g.link block id).start busy).1 = .ok text := by rw [hlink]
    rw [link, if_neg (by simp [henabled])] at hid
    obtain ⟨code, hcode, hresult⟩ := (hblock id).bind_eq_ok hid
    cases code with
    | statement text => exact ⟨text, hcode⟩
    | value text inner => cases hresult

/-! ### Chains -/

/-- The blocks are those of the chain, each once and up to its end. Each that is enabled is a
statement with the given text, when its code is generated while the given blocks are busy. -/
structure Spelled (g : Generator) (depth : Nat) (busy : List BlockId) (first : BlockId)
    (ids : List BlockId) (fragment : BlockId → String) : Prop where
  leads : Trail.Leads g.workspace.next? [] first ⟨ids, none⟩
  statement : ∀ b ∈ ids, g.workspace.isDisabled b = false →
    (g.blockWithin depth b).start busy = (.ok (.statement (fragment b)), busy)

namespace Spelled

variable {depth : Nat} {first : BlockId} {ids : List BlockId}

lemma chain_start (h : g.Spelled depth busy first ids fragment) :
    (g.chain (g.blockWithin depth) first).start busy = (.ok
      (String.join ((g.workspace.enabled ids).map fun b => statementLine (fragment b))), busy) := by
  have hchain : g.workspace.chain first = ⟨ids, none⟩ :=
    Trail.follow_eq_of_leads (fun _ _ => g.workspace.mem_ids_of_next?)
      g.workspace.blocks.length_keys h.leads
  rw [chain, hchain, start_bind, links_of_statements h.statement]
  rfl

lemma body_start (h : g.Spelled depth busy first ids fragment) {id : BlockId} {input : String}
    (hfirst : g.workspace.target? id input = some first) :
    (g.body (g.blockWithin depth) id input).start busy = (.ok (String.join
      ((g.workspace.enabled ids).map fun b =>
        Text.indentLines (statementLine (fragment b)) g.settings.indent)), busy) := by
  have hindent := Text.indentLines_join g.settings.indent
    (wholeLines_statementLines (g.workspace.enabled ids) fragment)
  rw [List.map_map] at hindent
  rw [body, hfirst]
  dsimp only
  rw [start_bind, h.chain_start]
  dsimp only
  rw [hindent]
  rfl

end Spelled

/-- Where a chain ends well, it has come to its end and its enabled blocks are statements. -/
lemma exists_spelled {depth : Nat} {first : BlockId} {code : String}
    (h : ((g.chain (g.blockWithin depth) first).start busy).1 = .ok code) :
    ∃ ids fragment, g.Spelled depth busy first ids fragment := by
  obtain ⟨text, hlinks, hend⟩ := (links_keeps (g.blockWithin_keeps depth) _).bind_eq_ok h
  have hrepeats : (g.workspace.chain first).repeats = none := by
    cases hrepeats : (g.workspace.chain first).repeats with
    | none => rfl
    | some r =>
      rw [hrepeats] at hend
      cases hend
  have hleads := g.workspace.leads_chain first
  have hstatements := statement_of_links (g.blockWithin_keeps depth) (congrArg Prod.fst hlinks)
  choose! fragment hfragment using hstatements
  exact ⟨(g.workspace.chain first).points, fragment, hrepeats ▸ hleads, hfragment⟩

/-- A chain compiles to a text just when it comes to an end and each enabled block of it is a
statement; the text is that of these blocks, in order, each with its line ended. It has whole
lines only, and where the chain is plugged into an input, the code of each block is indented. -/
theorem chain_compiles_block_by_block (g : Generator) (depth : Nat) (busy : List BlockId)
    (first : BlockId) :
    (∀ code, ((g.chain (g.blockWithin depth) first).start busy).1 = .ok code ↔
      ∃ ids fragment, g.Spelled depth busy first ids fragment ∧ code = String.join
        ((g.workspace.enabled ids).map fun b => statementLine (fragment b))) ∧
    (∀ code, ((g.chain (g.blockWithin depth) first).start busy).1 = .ok code →
      code = "" ∨ code.toList.getLast? = some '\n') ∧
    ∀ ids fragment, g.Spelled depth busy first ids fragment →
      ∀ id input, g.workspace.target? id input = some first →
        (g.body (g.blockWithin depth) id input).start busy = (.ok (String.join
          ((g.workspace.enabled ids).map fun b =>
            Text.indentLines (statementLine (fragment b)) g.settings.indent)), busy) := by
  have hcode (code : String) :
      ((g.chain (g.blockWithin depth) first).start busy).1 = .ok code ↔
        ∃ ids fragment, g.Spelled depth busy first ids fragment ∧ code = String.join
          ((g.workspace.enabled ids).map fun b => statementLine (fragment b)) := by
    constructor
    · intro h
      obtain ⟨ids, fragment, hspelled⟩ := exists_spelled h
      rw [hspelled.chain_start, Except.ok.injEq] at h
      exact ⟨ids, fragment, hspelled, h.symm⟩
    · rintro ⟨ids, fragment, hspelled, rfl⟩
      rw [hspelled.chain_start]
  refine ⟨hcode, fun code h => ?_, fun ids fragment h id input hfirst => h.body_start hfirst⟩
  obtain ⟨ids, fragment, -, rfl⟩ := (hcode code).mp h
  have hlines := Text.wholeLines_join (wholeLines_statementLines (g.workspace.enabled ids) fragment)
  exact hlines.imp_left fun hnil => String.toList_eq_nil_iff.mp hnil

/-! ### A chain of several lines -/

def drillVocabulary : Vocabulary where
  types := .ofList [
    ("start", .declared "core" []
      { type := "start", args := [⟨"DO", .statement none⟩], code := some "$[DO]" }),
    ("repeat", .declared "core" []
      { type := "repeat", args := [⟨"DO", .statement none⟩], code := some "repeat:\n$[DO]end",
        previous := true, next := true }),
    ("note", .declared "core" [] { type := "note", code := some "", previous := true, next := true }),
    ("beep", .declared "core" []
      { type := "beep", code := some "beep();\n\nwait();\n", previous := true, next := true })]

/-- Below the start stand a loop around a beep, a note without code, a disabled block of a type
that nobody knows, and a beep. -/
def drillWorkspace : Workspace where
  blocks := .ofList [
    ("s", { type := "start", inputs := .ofList [("DO", "r")] }),
    ("r", { type := "repeat", inputs := .ofList [("DO", "i")], next := some "n",
            parent := some "s" }),
    ("i", { type := "beep", parent := some "r" }),
    ("n", { type := "note", next := some "x", parent := some "r" }),
    ("x", { type := "unknown", disabled := ["MANUAL"], next := some "b", parent := some "n" }),
    ("b", { type := "beep", parent := some "x" })]

def drillGenerator : Generator where
  settings := {}
  vocabulary := drillVocabulary
  instances := .ofSettings {}
  workspace := drillWorkspace

/-- The code of the statements below the start. -/
def drillFragment (id : BlockId) : String :=
  if id = "r" then "repeat:\n  beep();\n\n  wait();\nend"
  else if id = "b" then "beep();\n\nwait();\n" else ""

/-- The chain below the start, while the code of the start is generated. -/
theorem drillGenerator_chain :
    ((drillGenerator.chain drillGenerator.block "r").start ["s"]).1 =
      .ok "repeat:\n  beep();\n\n  wait();\nend\nbeep();\n\nwait();\n" ∧
    ((drillGenerator.body drillGenerator.block "s" "DO").start ["s"]).1 =
      .ok "  repeat:\n    beep();\n\n    wait();\n  end\n  beep();\n\n  wait();\n" := by
  obtain ⟨hcode, -, hbody⟩ := chain_compiles_block_by_block drillGenerator
    (drillWorkspace.size + 1) ["s"] "r"
  have hspelled : drillGenerator.Spelled (drillWorkspace.size + 1) ["s"] "r" ["r", "n", "x", "b"]
      drillFragment := by
    have hchain : drillWorkspace.chain "r" = ⟨["r", "n", "x", "b"], none⟩ := by decide +kernel
    refine ⟨hchain ▸ drillWorkspace.leads_chain "r", fun id hid henabled => ?_⟩
    refine (drillGenerator.blockWithin_keeps _ id).start_eq_ok ?_
    have hall : ∀ id ∈ ["r", "n", "x", "b"], drillWorkspace.isDisabled id = false →
        ((drillGenerator.blockWithin (drillWorkspace.size + 1) id).start ["s"]).1.toOption =
          some (.statement (drillFragment id)) := by decide +kernel
    have hsome := hall id hid henabled
    cases hresult : ((drillGenerator.blockWithin (drillWorkspace.size + 1) id).start ["s"]).1 with
    | ok code =>
      rw [hresult] at hsome
      exact congrArg Except.ok (Option.some.inj hsome)
    | error failure =>
      rw [hresult] at hsome
      cases hsome
  have htext : String.join ((drillWorkspace.enabled ["r", "n", "x", "b"]).map fun b =>
      Text.indentLines (statementLine (drillFragment b)) "  ") =
      "  repeat:\n    beep();\n\n    wait();\n  end\n  beep();\n\n  wait();\n" := by
    decide +kernel
  refine ⟨(hcode _).mpr ⟨_, _, hspelled, by decide +kernel⟩, ?_⟩
  rw [← htext]
  exact congrArg Prod.fst (hbody _ _ hspelled "s" "DO" (by decide +kernel))

end Generator

end BlockProgram
