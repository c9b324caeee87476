import BlockProgram.Palette
import BlockProgram.Proofs.Reading

/-!
# Refusals point into the document

A reader is given a value together with its path, and passes longer paths on to the readers
of parts. What keeps these paths right is that each leads from the root of the document to
the value it is passed with. A refusal then stands at such a value, or at a key of such an
object. The key is one that the object lacks just where the reason is that it is missing.
-/
namespace BlockProgram

/-! ### Paths in writing -/

namespace Path

/-- A step after others: a key behind a point, or a position in brackets. -/
def writeStep : Step → String
  | .key name => "." ++ name
  | .index i => "[" ++ toString i ++ "]"

/-- Keys joined by points, and positions in brackets. -/
def write : List Step → String
  | .key name :: rest => name ++ String.join (rest.map writeStep)
  | steps => String.join (steps.map writeStep)

lemma foldl_renderStep {text : String} (h : text ≠ "") (steps : List Step) :
    steps.foldl renderStep text = text ++ String.join (steps.map writeStep) := by
  induction steps generalizing text with
  | nil => simp
  | cons s rest ih =>
    have hstep : renderStep text s = text ++ writeStep s := by
      cases s <;> simp [renderStep, writeStep, h, String.append_assoc]
    have hne : text ++ writeStep s ≠ "" := by simp [h]
    rw [List.foldl_cons, hstep, ih hne, List.map_cons, String.join_cons, String.append_assoc]

/-- A key that is empty looks like none, so it is written as it should only at the end. -/
lemma render_eq_write {p : Path} (hbase : p.base = "") (h : .key "" ∉ p.steps.dropLast) :
    p.render = write p.steps := by
  obtain ⟨base, steps⟩ := p
  subst hbase
  cases steps with
  | nil => rfl
  | cons s rest =>
    cases s with
    | key name =>
      by_cases hname : name = ""
      · cases rest with
        | nil => simp [render, renderStep, write]
        | cons s' rest' => simp [hname] at h
      · exact foldl_renderStep hname rest
    | index i =>
      have hne : renderStep "" (.index i) ≠ "" := by simp [renderStep]
      rw [render, List.foldl_cons, foldl_renderStep hne]
      simp [write, renderStep, writeStep]

/-- The path leads from the root to the part `j`, by keys that are not empty. -/
structure LeadsTo (p : Path) (root j : Json) : Prop where
  base : p.base = ""
  named : .key "" ∉ p.steps
  at_eq : root.at? p.steps = some j

variable {p : Path} {root j : Json}

lemma leadsTo_root (root : Json) : LeadsTo {} root root := ⟨rfl, List.not_mem_nil, rfl⟩

lemma LeadsTo.key {members : List (String × Json)} {key : String}
    (h : p.LeadsTo root (.object members)) (hkey : key ≠ "") (hj : members.lookup key = some j) :
    (p.key key).LeadsTo root j where
  base := h.base
  named := by simpa [Path.key, Ne.symm hkey] using h.named
  at_eq := by simp [Path.key, Json.at?_append, h.at_eq, Json.at?, Json.step?, Json.get?, hj]

lemma LeadsTo.index {items : List Json} {i : Nat} (h : p.LeadsTo root (.array items))
    (hj : items[i]? = some j) : (p.index i).LeadsTo root j where
  base := h.base
  named := by simpa [Path.index] using h.named
  at_eq := by simp [Path.index, Json.at?_append, h.at_eq, Json.at?, Json.step?, Json.item?, hj]

end Path

/-! ### Where refusals point -/

/-- A refusal of a part of the document, or at a key of an object in it. Just the keys that
the object lacks are refused as missing. -/
inductive Refusal.PointsInto (root : Json) : Refusal → Prop
  | part {p : Path} {j : Json} {reason : Reason} (place : p.LeadsTo root j)
      (given : reason ≠ .missing) : PointsInto root ⟨p, reason⟩
  | member {p : Path} {members : List (String × Json)} {key : String} {reason : Reason}
      (place : p.LeadsTo root (.object members))
      (given : reason = .missing ↔ members.lookup key = none) :
      PointsInto root ⟨p.key key, reason⟩

/-- Whatever is refused at the path points into the document, unless it is missing. -/
def Path.IsPlace (p : Path) (root : Json) : Prop :=
  ∀ reason : Reason, reason ≠ .missing → Refusal.PointsInto root ⟨p, reason⟩

lemma Path.LeadsTo.isPlace {p : Path} {root j : Json} (h : p.LeadsTo root j) : p.IsPlace root :=
  fun _ => .part h

/-- Every refusal of the check points into the document. -/
def RefusesIn {α : Type} (root : Json) (x : Checked α) : Prop :=
  ∀ refusal, x = .error refusal → refusal.PointsInto root

section RefusesIn

variable {α β : Type} {root : Json}

lemma RefusesIn.ok (a : α) : RefusesIn root (.ok a) := fun _ h => by cases h

lemma RefusesIn.bind {x : Checked α} {f : α → Checked β} (hx : RefusesIn root x)
    (hf : ∀ a, x = .ok a → RefusesIn root (f a)) : RefusesIn root (x >>= f) := by
  intro refusal h
  cases x with
  | error refusal' =>
    cases h
    exact hx _ rfl
  | ok a => exact hf a rfl refusal h

lemma RefusesIn.map {x : Checked α} (hx : RefusesIn root x) (f : α → β) :
    RefusesIn root (x.map f) := by
  intro refusal h
  cases x with
  | error refusal' =>
    cases h
    exact hx _ rfl
  | ok a => cases h

lemma refusesIn_refuse {path : Path} {reason : Reason}
    (h : Refusal.PointsInto root ⟨path, reason⟩) :
    RefusesIn root (refuse path reason : Checked α) := by
  intro refusal heq
  cases heq
  exact h

/-- Values are read one by one, each at its place in the array: a step refuses in the
document if the steps after it do. -/
lemma refusesIn_oneByOne {path : Path} (all : List α → List Json → Checked (List α))
    (hnil : ∀ done, RefusesIn root (all done []))
    (hcons : ∀ done j rest, (path.index done.length).LeadsTo root j →
      (∀ a, RefusesIn root (all (done ++ [a]) rest)) → RefusesIn root (all done (j :: rest)))
    {raw : List Json} (hraw : ∀ i j, raw[i]? = some j → (path.index i).LeadsTo root j) :
    RefusesIn root (all [] raw) := by
  suffices hfrom : ∀ (done : List α) (raw : List Json),
      (∀ i j, raw[i]? = some j → (path.index (done.length + i)).LeadsTo root j) →
        RefusesIn root (all done raw) from hfrom [] raw (by simpa using hraw)
  intro done raw hraw
  induction raw generalizing done with
  | nil => exact hnil done
  | cons j rest ih =>
    refine hcons done j rest (hraw 0 j rfl) fun a => ih _ fun i j' hj' => ?_
    have hplace := hraw (i + 1) j' hj'
    rwa [List.length_append, List.length_singleton, Nat.add_assoc, Nat.add_comm 1 i]

end RefusesIn

/-! ### Members of nodes -/

section Values

variable {root : Json} {path : Path}

lemma Json.refusesIn_asText (h : path.IsPlace root) (j : Json) :
    RefusesIn root (j.asText path) := by
  cases j
  case string => exact .ok _
  all_goals exact refusesIn_refuse (h _ nofun)

lemma Json.refusesIn_asItems (h : path.IsPlace root) (j : Json) :
    RefusesIn root (j.asItems path) := by
  cases j
  case array => exact .ok _
  all_goals exact refusesIn_refuse (h _ nofun)

lemma Precedence.refusesIn_ofJson (h : path.IsPlace root) (j : Json) :
    RefusesIn root (Precedence.ofJson path j) := by
  unfold Precedence.ofJson
  split
  · exact .ok _
  · exact refusesIn_refuse (h _ nofun)

lemma Node.refusesIn_ofJson {j : Json} (h : path.LeadsTo root j) :
    RefusesIn root (Node.ofJson path j) := by
  cases j
  case object => exact .ok _
  all_goals exact refusesIn_refuse (h.isPlace _ nofun)

end Values

namespace Node

variable {n : Node} {key : String}

lemma member?_of_given? {j : Json} (h : n.given? key = some j) : n.member? key = some j := by
  unfold given? at h
  split at h
  · cases h
  · exact h

/-- A text that may be left out is there if one was read. -/
lemma exists_member_of_text? {text : String} (h : n.text? key = .ok (some text)) :
    ∃ j, n.member? key = some j := by
  unfold text? at h
  split at h
  · cases h
  · next j hj => exact ⟨j, member?_of_given? hj⟩

lemma exists_member_of_flag (h : n.flag key = .ok true) : ∃ j, n.member? key = some j := by
  obtain ⟨b, hb, h⟩ := bind_eq_ok.mp h
  unfold flag? at hb
  split at hb
  · cases hb
    cases h
  · next j hj => exact ⟨_, member?_of_given? hj⟩
  · cases hb

lemma exists_member_of_int? {i : Int} (h : n.int? key = .ok (some i)) :
    ∃ j, n.member? key = some j := by
  unfold int? at h
  split at h
  · cases h
  · next hj => exact ⟨_, member?_of_given? hj⟩
  · cases h

lemma exists_member_of_output? {output : Output} (h : n.output? = .ok (some output)) :
    ∃ j, n.member? "output" = some j := by
  unfold output? at h
  split at h
  · cases h
  · cases h
  · next hj => exact ⟨_, member?_of_given? hj⟩
  · next hj => exact ⟨_, member?_of_given? hj⟩
  · cases h

/-- The node stands in the document where its path leads. -/
def StandsIn (n : Node) (root : Json) : Prop := n.path.LeadsTo root (.object n.members)

lemma standsIn_of_ofJson {root j : Json} {path : Path} (h : path.LeadsTo root j)
    (hn : Node.ofJson path j = .ok n) : n.StandsIn root := by
  cases j <;> cases hn
  exact h

namespace StandsIn

variable {root : Json} (hn : n.StandsIn root)
include hn

lemma isPlace {j : Json} (hj : n.member? key = some j) : (n.path.key key).IsPlace root := by
  intro reason hreason
  refine .member hn (iff_of_false hreason fun hnone => ?_)
  cases hj.symm.trans hnone

lemma refuse {α : Type} {j : Json} (hj : n.member? key = some j) {reason : Reason}
    (hreason : reason ≠ .missing) : RefusesIn root (n.refuse key reason : Checked α) :=
  refusesIn_refuse (hn.isPlace hj reason hreason)

lemma missing {α : Type} (hj : n.member? key = none) :
    RefusesIn root (n.refuse key .missing : Checked α) :=
  refusesIn_refuse (.member hn (iff_of_true rfl hj))

lemma only (keys : List String) : RefusesIn root (n.only keys) := by
  unfold Node.only
  split
  · next m hm =>
    have hmem : m.1 ∈ n.members.map Prod.fst :=
      List.mem_map_of_mem (List.mem_of_find?_eq_some hm)
    obtain ⟨j, hj⟩ := Option.isSome_iff_exists.mp ((Table.lookup_isSome_iff n.members m.1).mpr hmem)
    exact hn.refuse hj nofun
  · exact .ok _

lemma text (key : String) : RefusesIn root (n.text key) := by
  unfold Node.text
  split
  · next j hj => exact Json.refusesIn_asText (hn.isPlace hj) j
  · next hnone => exact hn.missing hnone

lemma word (key : String) : RefusesIn root (n.word key) := by
  refine .bind (hn.text key) fun s hs => ?_
  split
  · exact .ok _
  · exact hn.refuse (text_eq_ok_iff.mp hs) nofun

lemma text? (key : String) : RefusesIn root (n.text? key) := by
  unfold Node.text?
  split
  · exact .ok _
  · next j hj => exact (Json.refusesIn_asText (hn.isPlace (member?_of_given? hj)) j).map _

lemma flag? (key : String) : RefusesIn root (n.flag? key) := by
  unfold Node.flag?
  split
  · exact .ok _
  · exact .ok _
  · next j _ hj => exact hn.refuse (member?_of_given? hj) nofun

lemma flag (key : String) : RefusesIn root (n.flag key) :=
  .bind (hn.flag? key) fun _ _ => .ok _

lemma int? (key : String) : RefusesIn root (n.int? key) := by
  unfold Node.int?
  split
  · exact .ok _
  · next m hm =>
    split
    · exact .ok _
    · exact hn.refuse (member?_of_given? hm) nofun
  · next j _ hj => exact hn.refuse (member?_of_given? hj) nofun

lemma float? (key : String) : RefusesIn root (n.float? key) := by
  unfold Node.float?
  split
  · exact .ok _
  · exact .ok _
  · next j _ hj => exact hn.refuse (member?_of_given? hj) nofun

lemma items (key : String) : RefusesIn root (n.items key) := by
  unfold Node.items
  split
  · exact .ok _
  · next j hj => exact Json.refusesIn_asItems (hn.isPlace (member?_of_given? hj)) j

/-- The items of an array stand at their positions. -/
lemma leadsTo_items (hkey : key ≠ "") {raw : List Json} (hraw : n.items key = .ok raw) :
    ∀ i j, raw[i]? = some j → ((n.path.key key).index i).LeadsTo root j := by
  intro i j hj
  unfold Node.items at hraw
  split at hraw
  · cases hraw
    cases hj
  · next value hvalue =>
    cases value <;> cases hraw
    exact (Path.LeadsTo.key hn hkey (member?_of_given? hvalue)).index hj

lemma precedence? (key : String) : RefusesIn root (n.precedence? key) := by
  unfold Node.precedence?
  split
  · exact .ok _
  · next j hj => exact (Precedence.refusesIn_ofJson (hn.isPlace (member?_of_given? hj)) j).map _

lemma colour? : RefusesIn root n.colour? := by
  unfold Node.colour?
  split
  · exact .ok _
  · exact .ok _
  · next m hm =>
    split
    · exact .ok _
    · exact hn.refuse (member?_of_given? hm) nofun
  · next j _ _ hj => exact hn.refuse (member?_of_given? hj) nofun

lemma style? : RefusesIn root n.style? := by
  refine .bind hn.colour? fun colour _ => .bind (hn.text? "style") fun named hnamed => ?_
  split
  · obtain ⟨j, hj⟩ := exists_member_of_text? hnamed
    exact hn.refuse hj nofun
  all_goals exact .ok _

lemma output? : RefusesIn root n.output? := by
  unfold Node.output?
  split
  all_goals try exact .ok _
  next j _ _ _ hj => exact hn.refuse (member?_of_given? hj) nofun

end StandsIn

end Node

/-! ### Arguments -/

section Readers

variable {root : Json} {path : Path} {j : Json}

lemma Choice.refusesIn_ofJson (h : path.LeadsTo root j) :
    RefusesIn root (Choice.ofJson path j) := by
  unfold Choice.ofJson
  split
  · next label value =>
    refine .bind (Json.refusesIn_asText (h.index (i := 0) rfl).isPlace label) fun _ _ => ?_
    refine .bind (Json.refusesIn_asText (h.index (i := 1) rfl).isPlace value) fun _ _ => ?_
    exact .ok _
  · exact refusesIn_refuse (h.isPlace _ nofun)

lemma refusesIn_readItems {α : Type} {read : Path → Json → Checked α}
    (hread : ∀ path j, path.LeadsTo root j → RefusesIn root (read path j)) {raw : List Json}
    (hraw : ∀ i j, raw[i]? = some j → (path.index i).LeadsTo root j) :
    RefusesIn root (readItems read path 0 raw) := by
  suffices hfrom : ∀ (i : Nat) (raw : List Json),
      (∀ k j, raw[k]? = some j → (path.index (i + k)).LeadsTo root j) →
        RefusesIn root (readItems read path i raw) from hfrom 0 raw (by simpa using hraw)
  intro i raw hraw
  induction raw generalizing i with
  | nil => exact .ok _
  | cons j rest ih =>
    refine .bind (hread _ j (hraw 0 j rfl)) fun a _ => .bind (ih (i + 1) ?_) fun _ _ => .ok _
    intro k j' hj'
    have hplace := hraw (k + 1) j' hj'
    rwa [Nat.add_assoc, Nat.add_comm 1 k]

lemma ArgumentKind.refusesIn_ofDropdown {n : Node} (hn : n.StandsIn root) :
    RefusesIn root (ofDropdown n) := by
  refine .bind (hn.text? "instanceOf") fun system hsystem => ?_
  split
  · obtain ⟨j, hj⟩ := Node.exists_member_of_text? hsystem
    exact hn.refuse hj nofun
  · exact .ok _
  · next hnone => exact hn.missing hnone
  · next raw hraw =>
    refine .bind (Json.refusesIn_asItems (hn.isPlace hraw) raw) fun items hitems => ?_
    have hplace := Path.LeadsTo.key hn (by decide) hraw
    split
    · exact refusesIn_refuse (hplace.isPlace _ nofun)
    · cases raw <;> cases hitems
      exact .bind (refusesIn_readItems (fun _ _ => Choice.refusesIn_ofJson) fun i j =>
        hplace.index) fun _ _ => .ok _

lemma ArgumentKind.refusesIn_ofNode {n : Node} (hn : n.StandsIn root) {type : String}
    (htype : n.text "type" = .ok type) : RefusesIn root (ofNode n type) := by
  unfold ofNode
  split
  · exact .bind (hn.text? _) fun _ _ => .ok _
  · exact .bind (hn.float? _) fun _ _ => .bind (hn.float? _) fun _ _ =>
      .bind (hn.float? _) fun _ _ => .ok _
  · exact .bind (hn.flag _) fun _ _ => .ok _
  · exact refusesIn_ofDropdown hn
  · exact .bind (hn.text? _) fun _ _ => .bind (hn.precedence? _) fun _ _ => .ok _
  · exact .bind (hn.text? _) fun _ _ => .ok _
  · exact hn.refuse (Node.text_eq_ok_iff.mp htype) nofun

lemma Argument.refusesIn_ofJson (h : path.LeadsTo root j) :
    RefusesIn root (Argument.ofJson path j) := by
  refine .bind (Node.refusesIn_ofJson h) fun n hn => ?_
  have hn := Node.standsIn_of_ofJson h hn
  refine .bind (hn.text "name") fun name hname => ?_
  split
  · exact hn.refuse (Node.text_eq_ok_iff.mp hname) nofun
  · refine .bind (hn.text "type") fun type htype => ?_
    exact .bind (ArgumentKind.refusesIn_ofNode hn htype) fun _ _ => .ok _

/-- A name that was read stands under its key. -/
lemma isPlace_name (h : path.LeadsTo root j) {n : Node} (hn : Node.ofJson path j = .ok n)
    {name : String} (hname : n.text "name" = .ok name) : (path.key "name").IsPlace root := by
  have hplace := (Node.standsIn_of_ofJson h hn).isPlace (Node.text_eq_ok_iff.mp hname)
  rwa [Node.path_of_ofJson hn] at hplace

lemma Argument.refusesIn_readAll {raw : List Json}
    (hraw : ∀ i j, raw[i]? = some j → (path.index i).LeadsTo root j) :
    RefusesIn root (Argument.readAll path [] raw) := by
  refine refusesIn_oneByOne (readAll path) (fun _ => .ok _) (fun done j rest hj hrest => ?_) hraw
  refine .bind (Argument.refusesIn_ofJson hj) fun a ha => ?_
  split
  · obtain ⟨n, hn, ha⟩ := bind_eq_ok.mp ha
    obtain ⟨name, hname, -⟩ := bind_eq_ok.mp ha
    exact refusesIn_refuse (isPlace_name hj hn hname _ nofun)
  · exact hrest a

lemma refusesIn_checkPlaceholders {args : List Argument} {names : List String}
    (h : names ≠ [] → path.IsPlace root) (seen : List String) :
    RefusesIn root (checkPlaceholders path args seen names) := by
  induction names generalizing seen with
  | nil => exact .ok _
  | cons name rest ih =>
    have hplace := h (List.cons_ne_nil _ _)
    unfold checkPlaceholders
    split
    · exact refusesIn_refuse (hplace _ nofun)
    · split
      · exact ih (fun _ => hplace) _
      · exact refusesIn_refuse (hplace _ nofun)

/-! ### Constructors -/

lemma Virtual.refusesIn_ofJson (h : path.LeadsTo root j) :
    RefusesIn root (Virtual.ofJson path j) := by
  refine .bind (Node.refusesIn_ofJson h) fun n hn => ?_
  have hn := Node.standsIn_of_ofJson h hn
  refine .bind (hn.only _) fun _ _ => .bind (hn.word _) fun _ _ => ?_
  exact .bind (hn.word _) fun _ _ => .bind (hn.text _) fun _ _ => .ok _

lemma Virtual.refusesIn_readAll {raw : List Json}
    (hraw : ∀ i j, raw[i]? = some j → (path.index i).LeadsTo root j) :
    RefusesIn root (Virtual.readAll path [] raw) := by
  refine refusesIn_oneByOne (readAll path) (fun _ => .ok _) (fun done j rest hj hrest => ?_) hraw
  refine .bind (Virtual.refusesIn_ofJson hj) fun v hv => ?_
  split
  · obtain ⟨n, hn, hv⟩ := bind_eq_ok.mp hv
    obtain ⟨-, -, hv⟩ := bind_eq_ok.mp hv
    obtain ⟨system, -, hv⟩ := bind_eq_ok.mp hv
    obtain ⟨name, hname, -⟩ := bind_eq_ok.mp hv
    exact refusesIn_refuse (isPlace_name hj hn (Node.word_eq_ok_iff.mp hname).1 _ nofun)
  · exact hrest v

lemma Constructor.refusesIn_ofNode {n : Node} (hn : n.StandsIn root) :
    RefusesIn root (Constructor.ofNode n) := by
  refine .bind (hn.only _) fun _ _ => .bind (hn.word _) fun system _ => ?_
  refine .bind (hn.items _) fun raw hraw => ?_
  refine .bind (Virtual.refusesIn_readAll (hn.leadsTo_items (by decide) hraw)) fun _ _ => ?_
  exact .bind (hn.text? _) fun _ _ => .bind (hn.text? _) fun _ _ => .ok _

lemma Constructor.refusesIn_ofJson (h : path.LeadsTo root j) (args : List Argument) :
    RefusesIn root (Constructor.ofJson path args j) := by
  unfold Constructor.ofJson
  cases j
  all_goals
    refine .bind ?_ fun c _ => ?_
    · first
        | exact .ok _
        | exact Constructor.refusesIn_ofNode h
        | exact refusesIn_refuse (h.isPlace _ nofun)
    · dsimp only
      split
      · split
        · exact .ok _
        · exact refusesIn_refuse (h.isPlace _ nofun)
      · exact refusesIn_refuse (h.isPlace _ nofun)

/-! ### Blocks -/

lemma Definition.refusesIn_constructor? {n : Node} (hn : n.StandsIn root) (args : List Argument) :
    RefusesIn root (constructor? n args) := by
  unfold constructor?
  split
  · exact .ok _
  · next raw hraw =>
    have hplace := Path.LeadsTo.key hn (by decide) (Node.member?_of_given? hraw)
    exact (Constructor.refusesIn_ofJson hplace args).map _

lemma Definition.refusesIn_ofJson (h : path.LeadsTo root j) :
    RefusesIn root (Definition.ofJson path j) := by
  refine .bind (Node.refusesIn_ofJson h) fun n hnode => ?_
  have hn := Node.standsIn_of_ofJson h hnode
  obtain rfl : n.path = path := Node.path_of_ofJson hnode
  refine .bind (hn.word _) fun type _ => .bind (hn.text? _) fun message hmessage => ?_
  refine .bind (hn.items _) fun raw hraw => ?_
  refine .bind (Argument.refusesIn_readAll (hn.leadsTo_items (by decide) hraw)) fun args _ => ?_
  -- A message that is left out is empty and has no placeholders.
  have hplaced : Template.placeholders (message.getD "") ≠ [] →
      (n.path.key "message").IsPlace root := by
    intro hne
    cases message with
    | none => exact absurd (by decide +kernel) hne
    | some text =>
      obtain ⟨j, hj⟩ := Node.exists_member_of_text? hmessage
      exact hn.isPlace hj
  refine .bind (refusesIn_checkPlaceholders hplaced []) fun _ _ => ?_
  refine .bind hn.output? fun output houtput => .bind (hn.flag _) fun previous _ => ?_
  refine .bind (hn.flag _) fun next _ => ?_
  dsimp only
  split
  · next hboth =>
    obtain ⟨o, rfl⟩ := Option.isSome_iff_exists.mp (Bool.and_eq_true_iff.mp hboth).1
    obtain ⟨j, hj⟩ := Node.exists_member_of_output? houtput
    exact .bind (hn.refuse hj nofun) nofun
  refine .bind (hn.precedence? _) fun order _ => .bind (hn.flag _) fun start hstart => ?_
  split
  · next hboth =>
    obtain rfl := (Bool.and_eq_true_iff.mp hboth).1
    obtain ⟨j, hj⟩ := Node.exists_member_of_flag hstart
    exact .bind (hn.refuse hj nofun) nofun
  refine Eq.mp (congrArg (RefusesIn root) (Definition.constructor?_bind n args _)) ?_
  refine .bind (Definition.refusesIn_constructor? hn args) fun _ _ => ?_
  refine .bind (hn.text? _) fun _ _ => .bind (hn.flag _) fun _ _ => ?_
  refine .bind (hn.text? _) fun _ _ => .bind (hn.text? _) fun _ _ => ?_
  exact .bind hn.style? fun _ _ => .bind (hn.flag? _) fun _ _ => .ok _

/-! ### Documents -/

lemma Item.refusesIn_ofSeparator {n : Node} (hn : n.StandsIn root) :
    RefusesIn root (Item.ofSeparator n) := by
  refine .bind (hn.only _) fun _ _ => .bind (hn.int? _) fun gap hgap => ?_
  split
  · exact .ok _
  · split
    · exact .ok _
    · obtain ⟨j, hj⟩ := Node.exists_member_of_int? hgap
      exact hn.refuse hj nofun

lemma Item.refusesIn_ofJson (h : path.LeadsTo root j) (done : List Item) :
    RefusesIn root (Item.ofJson path done j) := by
  refine .bind (Node.refusesIn_ofJson h) fun n hnode => ?_
  have hn := Node.standsIn_of_ofJson h hnode
  refine .bind (hn.text? _) fun kind hkind => ?_
  split
  · refine .bind (Definition.refusesIn_ofJson h) fun d hd => ?_
    split
    · obtain ⟨n', hnode', hread⟩ := Definition.readFrom_of_ofJson hd
      cases hnode.symm.trans hnode'
      exact hn.refuse (Node.text_eq_ok_iff.mp (Node.word_eq_ok_iff.mp hread.type).1) nofun
    · exact .ok _
  · exact .bind (hn.only _) fun _ _ => .bind (hn.text _) fun _ _ => .ok _
  · exact Item.refusesIn_ofSeparator hn
  · exact Item.refusesIn_ofSeparator hn
  · next hblock _ _ _ =>
    cases kind with
    | none => exact absurd rfl hblock
    | some kind =>
      obtain ⟨j, hj⟩ := Node.exists_member_of_text? hkind
      exact hn.refuse hj nofun

lemma Item.refusesIn_readAll {raw : List Json}
    (hraw : ∀ i j, raw[i]? = some j → (path.index i).LeadsTo root j) :
    RefusesIn root (Item.readAll path [] raw) := by
  refine refusesIn_oneByOne (readAll path) (fun _ => .ok _) (fun done j rest hj hrest => ?_) hraw
  exact .bind (Item.refusesIn_ofJson hj done) fun item _ => hrest item

lemma Body.refusesIn_ofNode {n : Node} (hn : n.StandsIn root) : RefusesIn root (Body.ofNode n) := by
  unfold Body.ofNode
  split
  · next hcustom => exact hn.refuse hcustom nofun
  · next hnone _ => exact hn.missing hnone
  · next raw _ hraw => exact (Json.refusesIn_asText (hn.isPlace hraw) raw).map _
  · next raw hraw _ =>
    have hplace := Path.LeadsTo.key hn (by decide) hraw
    refine .bind (Json.refusesIn_asItems hplace.isPlace raw) fun items hitems => ?_
    cases raw <;> cases hitems
    exact .bind (Item.refusesIn_readAll fun i j => hplace.index) fun _ _ => .ok _

lemma Document.refusesIn_ofJson (source : String) (root : Json) :
    RefusesIn root (Document.ofJson source root) := by
  have hroot := Path.leadsTo_root root
  refine .bind (Node.refusesIn_ofJson hroot) fun n hn => ?_
  have hn := Node.standsIn_of_ofJson hroot hn
  refine .bind (hn.only _) fun _ _ => .bind (hn.word _) fun _ _ => ?_
  refine .bind (hn.text? _) fun _ _ => .bind (hn.items _) fun raw hraw => ?_
  have himports := hn.leadsTo_items (by decide) hraw
  refine .bind (refusesIn_readItems (fun _ j h => Json.refusesIn_asText h.isPlace j) himports) ?_
  intro imports _
  refine .bind (Body.refusesIn_ofNode hn) fun _ _ => ?_
  refine .bind (hn.text? _) fun _ _ => .bind (hn.text? _) fun _ _ => .bind hn.style? fun _ _ => ?_
  exact .bind (hn.int? _) fun _ _ => .bind (hn.text? _) fun _ _ => .ok _

end Readers

/-- The steps lead to an object, and on by a key that it lacks. -/
def Json.Lacks (root : Json) (steps : List Step) : Prop :=
  ∃ before key members, steps = before ++ [.key key] ∧
    root.at? before = some (.object members) ∧ members.lookup key = none

lemma Refusal.PointsInto.exists_steps {root : Json} {refusal : Refusal}
    (h : refusal.PointsInto root) : ∃ steps, refusal.path.render = Path.write steps ∧
      (refusal.reason ≠ .missing ∧ (root.at? steps).isSome = true ∨
        refusal.reason = .missing ∧ root.Lacks steps) := by
  cases h with
  | @part p j reason place given =>
    have hnamed : .key "" ∉ p.steps.dropLast := fun h => place.named (List.dropLast_subset _ h)
    refine ⟨p.steps, Path.render_eq_write place.base hnamed, .inl ⟨given, ?_⟩⟩
    rw [place.at_eq, Option.isSome_some]
  | @member p members key reason place given =>
    have hnamed : .key "" ∉ (p.key key).steps.dropLast := by
      rw [Path.key, List.dropLast_concat]
      exact place.named
    refine ⟨(p.key key).steps, Path.render_eq_write place.base hnamed, ?_⟩
    cases hj : members.lookup key with
    | none => exact .inr ⟨given.mpr hj, p.steps, key, members, rfl, place.at_eq, hj⟩
    | some j =>
      refine .inl ⟨fun hmissing => ?_, ?_⟩
      · cases hj.symm.trans (given.mp hmissing)
      · simp [Path.key, Json.at?_append, place.at_eq, Json.at?, Json.step?, Json.get?, hj]

/-- Let a document be refused. Whoever loads it is told of invalid configuration in its
source, at a path that is the writing of steps into the document. The steps lead to a part of
it, or to an object and on by a key that it lacks, and the latter just if the complaint is
that something is missing. -/
theorem refusal_points_into_document {source : String} {j : Json} {refusal : Refusal}
    (h : Document.ofJson source j = .error refusal) :
    let failure := Failure.refused source refusal
    (∀ catalog v sections index content, catalog.localize content = j →
        (Loaded.addSource catalog v sections index ⟨source, content⟩).sections = .error failure) ∧
      failure.kind = .invalidConfiguration ∧
      ∃ steps, failure.complaint? = some ⟨source, Path.write steps, refusal.reason.message⟩ ∧
        (refusal.reason ≠ .missing ∧ (j.at? steps).isSome = true ∨
          refusal.reason = .missing ∧ j.Lacks steps) := by
  intro failure
  have hpoints := Document.refusesIn_ofJson source j refusal h
  obtain ⟨steps, hpath, hsteps⟩ := hpoints.exists_steps
  refine ⟨fun catalog v sections index content hj => ?_, rfl, steps, ?_, hsteps⟩
  · simp only [Loaded.addSource, hj, h, failure]
  · rw [← hpath]
    rfl

lemma exists_error_of_mapError {ε α β : Type} {x : Except ε α} {f : ε → β} {b : β}
    (h : (x.mapError f).map (fun _ => ()) = .error b) : ∃ e, x = .error e ∧ f e = b := by
  cases x with
  | ok a => cases h
  | error e => exact ⟨e, rfl, Except.error.inj h⟩

/-- Both virtual instances have one name. -/
def dimmerDocument : Json :=
  .mkObject [("category", .string "lamps"), ("contents", .array [
    .mkObject [("kind", .string "sep"), ("gap", .null)],
    .mkObject [("type", .string "dimmer"), ("message", .string "dimmer $[NAME]"),
      ("args", .array [.mkObject [("name", .string "NAME"), ("type", .string "field_input")]]),
      ("constructs", .mkObject [("system", .string "lamp"), ("virtualInstances", .array [
        .mkObject [("instanceOf", .string "bulb"), ("name", .string "bulb"),
          ("connection", .string "$[NAME].bulb")],
        .mkObject [("instanceOf", .string "dial"), ("name", .string "bulb"),
          ("connection", .string "$[NAME].dial")]])])]])]

theorem dimmerDocument_refused_at_name :
    ∃ refusal, Document.ofJson "lamps.json" dimmerDocument = .error refusal ∧
      (Failure.refused "lamps.json" refusal).kind = .invalidConfiguration ∧
      (Failure.refused "lamps.json" refusal).complaint? = some ⟨"lamps.json",
        "contents[1].constructs.virtualInstances[1].name", "duplicate virtual instance `bulb`"⟩ ∧
      ∃ steps, Path.write steps = "contents[1].constructs.virtualInstances[1].name" ∧
        (dimmerDocument.at? steps).isSome = true := by
  obtain ⟨refusal, hrefused, hcomplaint⟩ : ∃ refusal,
      Document.ofJson "lamps.json" dimmerDocument = .error refusal ∧
        (Failure.refused "lamps.json" refusal).complaint? = some ⟨"lamps.json",
          "contents[1].constructs.virtualInstances[1].name",
          "duplicate virtual instance `bulb`"⟩ :=
    exists_error_of_mapError (by decide +kernel)
  obtain ⟨-, hkind, steps, hsteps, hplace⟩ := refusal_points_into_document hrefused
  obtain ⟨-, hpath, hmessage⟩ := Complaint.mk.inj (Option.some.inj (hsteps.symm.trans hcomplaint))
  rcases hplace with ⟨-, hat⟩ | ⟨hmissing, -⟩
  · exact ⟨refusal, hrefused, hkind, hcomplaint, steps, hpath, hat⟩
  · rw [hmissing] at hmessage
    exact absurd hmessage (by decide)

end BlockProgram
