import BlockProgram.Code.Compile
import BlockProgram.Proofs.Editing
import BlockProgram.Proofs.Trails

/-!
# Generations that succeed

A generation yields a result when it ends well and leaves the busy blocks as they
were. Each step of the generator yields one as soon as the blocks it asks for do.
The depth to which blocks are followed has room left as long as the busy blocks
are different blocks of the workspace.
-/
namespace BlockProgram

/-! ### Results -/

namespace Generation

variable {α β : Type}

/-- The generation ends well, with a result that satisfies `P` and the busy blocks
unchanged. -/
def Yields (x : Generation α) (busy : List BlockId) (P : α → Prop) : Prop :=
  ∃ a, x.start busy = (.ok a, busy) ∧ P a

variable {busy : List BlockId} {P Q : α → Prop}

lemma start_bind (x : Generation α) (f : α → Generation β) (busy : List BlockId) :
    (x >>= f).start busy = match x.start busy with
      | (.ok a, after) => (f a).start after
      | (.error failure, after) => (.error failure, after) := by
  change (ExceptT.bindCont f (x.start busy).1 : StateM _ _) (x.start busy).2 = _
  rcases x.start busy with ⟨result, after⟩
  cases result <;> rfl

lemma start_guarded (id : BlockId) (body : Generation α) (busy : List BlockId) :
    (guarded id body).start busy =
      if id ∈ busy then (.error (.code (.connectedToItself id)), busy)
      else ((body.start (id :: busy)).1, (body.start (id :: busy)).2.erase id) := rfl

lemma start_attempt (x : Generation α) (busy : List BlockId) :
    x.attempt.start busy = (.ok (x.start busy).1, (x.start busy).2) := rfl

lemma Yields.pure {a : α} (h : P a) : (pure a : Generation α).Yields busy P := ⟨a, rfl, h⟩

lemma Yields.mono {x : Generation α} (h : x.Yields busy P) (hPQ : ∀ a, P a → Q a) :
    x.Yields busy Q := by
  obtain ⟨a, hx, ha⟩ := h
  exact ⟨a, hx, hPQ a ha⟩

lemma Yields.bind {x : Generation α} {f : α → Generation β} {R : β → Prop}
    (hx : x.Yields busy P) (hf : ∀ a, P a → (f a).Yields busy R) : (x >>= f).Yields busy R := by
  obtain ⟨a, hxa, ha⟩ := hx
  obtain ⟨b, hfb, hb⟩ := hf a ha
  refine ⟨b, ?_, hb⟩
  rw [start_bind, hxa]
  exact hfb

lemma Yields.guarded {id : BlockId} {body : Generation α} (hid : id ∉ busy)
    (h : body.Yields (id :: busy) P) : (guarded id body).Yields busy P := by
  obtain ⟨a, hbody, ha⟩ := h
  refine ⟨a, ?_, ha⟩
  rw [start_guarded, if_neg hid, hbody, List.erase_cons_head]

/-- If two generations one after the other end well, so does each of them. -/
lemma exists_of_bind_eq_ok {x : Generation α} {f : α → Generation β} {b : β}
    (h : ((x >>= f).start busy).1 = .ok b) :
    ∃ a after, x.start busy = (.ok a, after) ∧ ((f a).start after).1 = .ok b := by
  rw [start_bind] at h
  rcases hstart : x.start busy with ⟨result, after⟩
  rw [hstart] at h
  cases result with
  | ok a => exact ⟨a, after, rfl, h⟩
  | error failure => cases h

/-- What follows a generation matters at the results that it can have. -/
lemma bind_congr_of_ok {x : Generation α} {f f' : α → Generation β}
    (h : ∀ busy a, (x.start busy).1 = .ok a → f a = f' a) : x >>= f = x >>= f' := by
  refine funext fun busy => ?_
  change (x >>= f).start busy = (x >>= f').start busy
  rw [start_bind, start_bind]
  rcases hstart : x.start busy with ⟨result, after⟩
  cases result with
  | ok a =>
    dsimp only
    rw [h busy a (by rw [hstart])]
  | error failure => rfl

end Generation

lemma Template.argumentValue?_ofList {args : List Argument} {filled : List (String × String)}
    (h : ∀ e ∈ filled, args.any (·.name == e.1) = true) :
    argumentValue? args (.ofList filled) = (Table.ofList filled).get? := by
  refine funext fun name => ?_
  unfold argumentValue?
  split
  · rfl
  · next hname =>
    cases hget : (Table.ofList filled).get? name with
    | none => rfl
    | some text =>
      have hmem := (Table.mem_of_get?_foldl_insert hget).resolve_right (by simp)
      exact absurd (h _ hmem) hname

/-! ### Steps of the generator -/

namespace Generator

open Generation

variable {g : Generator} {block : BlockId → Generation Code} {id : BlockId} {busy : List BlockId}
  {code : String}

lemma operand_yields {input : String} {order : Precedence} {P : String → Prop}
    (hempty : (∀ target, g.workspace.target? id input = some target →
      g.workspace.isDisabled target = true) → P g.settings.nullLiteral)
    (hblock : ∀ target, g.workspace.target? id input = some target →
      g.workspace.isDisabled target = false → (block target).Yields busy fun code =>
        ∃ text inner, code = .value text inner ∧ P (order.wrap text inner)) :
    (g.operand block id input order).Yields busy P := by
  unfold operand
  split
  · next hnone => exact .pure (hempty fun target htarget => by simp [hnone] at htarget)
  · next target htarget =>
    split
    · next hdisabled =>
      refine .pure (hempty fun target' htarget' => ?_)
      rw [htarget] at htarget'
      cases htarget'
      exact hdisabled
    · next henabled =>
      refine (hblock target htarget (by simpa using henabled)).bind ?_
      rintro code ⟨text, inner, rfl, htext⟩
      exact .pure htext

lemma link_yields (hblock : g.workspace.isDisabled id = false →
      (block id).Yields busy fun code => ∃ text, code = .statement text) :
    (g.link block id).Yields busy fun _ => True := by
  unfold link
  split
  · exact .pure trivial
  · next henabled =>
    refine (hblock (by simpa using henabled)).bind ?_
    rintro code ⟨text, rfl⟩
    exact .pure trivial

lemma links_yields {ids : List BlockId}
    (hlink : ∀ id ∈ ids, (g.link block id).Yields busy fun _ => True) :
    (g.links block ids).Yields busy fun _ => True := by
  induction ids with
  | nil => exact .pure trivial
  | cons id rest ih =>
    refine (hlink id (by simp)).bind fun text _ => ?_
    refine (ih fun k hk => hlink k (List.mem_cons_of_mem _ hk)).bind fun more _ => ?_
    exact .pure trivial

lemma chain_yields {first : BlockId}
    (hacyclic : ∀ k, ¬ Relation.TransGen (fun a b => g.workspace.next? a = some b) k k)
    (hblock : ∀ k, Relation.ReflTransGen (fun a b => g.workspace.next? a = some b) first k →
      g.workspace.isDisabled k = false → (block k).Yields busy fun code =>
        ∃ text, code = .statement text) :
    (g.chain block first).Yields busy fun _ => True := by
  unfold chain
  refine (links_yields fun k hk => link_yields (hblock k (Trail.reaches_of_mem_walk hk))).bind
    fun text _ => ?_
  split
  · next r hr => exact absurd (Trail.cycle_of_repeats hr) (hacyclic r)
  · exact .pure trivial

lemma body_yields {input : String} (hchain : ∀ first, g.workspace.target? id input = some first →
      (g.chain block first).Yields busy fun _ => True) :
    (g.body block id input).Yields busy fun _ => True := by
  unfold body
  split
  · exact .pure trivial
  · next first hfirst => exact (hchain first hfirst).bind fun _ _ => .pure trivial

/-- Each argument that the template mentions is filled in, and nothing else. -/
lemma fragments_yields {template : String} {args : List Argument} {P : Argument → String → Prop}
    (hfragment : ∀ a ∈ args, Template.mentions template a.name = true →
      (g.fragment block id a).Yields busy (P a)) :
    (g.fragments block id template args).Yields busy fun filled =>
      (∀ a ∈ args, Template.mentions template a.name = true → ∃ text, (a.name, text) ∈ filled) ∧
        ∀ e ∈ filled, ∃ a ∈ args, a.name = e.1 ∧ P a e.2 := by
  induction args with
  | nil => exact .pure ⟨by simp, by simp⟩
  | cons a rest ih =>
    have hrest := ih fun a' ha' => hfragment a' (List.mem_cons_of_mem _ ha')
    unfold fragments
    split
    · next hmentions =>
      refine (hfragment a (by simp) hmentions).bind fun text htext => ?_
      refine hrest.bind fun more ⟨hall, honly⟩ => .pure ⟨?_, ?_⟩
      · intro a' ha' hmentions'
        rcases List.mem_cons.mp ha' with rfl | ha'
        · exact ⟨text, by simp⟩
        · obtain ⟨text', htext'⟩ := hall a' ha' hmentions'
          exact ⟨text', List.mem_cons_of_mem _ htext'⟩
      · intro e he
        rcases List.mem_cons.mp he with rfl | he
        · exact ⟨a, by simp, rfl, htext⟩
        · obtain ⟨a', ha', hname, hP⟩ := honly e he
          exact ⟨a', List.mem_cons_of_mem _ ha', hname, hP⟩
    · next hmentions =>
      refine hrest.mono fun filled ⟨hall, honly⟩ => ⟨?_, ?_⟩
      · intro a' ha' hmentions'
        rcases List.mem_cons.mp ha' with rfl | ha'
        · exact absurd hmentions' hmentions
        · exact hall a' ha' hmentions'
      · intro e he
        obtain ⟨a', ha', hname, hP⟩ := honly e he
        exact ⟨a', List.mem_cons_of_mem _ ha', hname, hP⟩

/-- Only arguments are filled in. -/
lemma any_name_of_fragments {args : List Argument} {busy : List BlockId}
    {filled : List (String × String)}
    (h : ((g.fragments block id code args).start busy).1 = .ok filled) :
    ∀ e ∈ filled, args.any (·.name == e.1) = true := by
  induction args generalizing busy filled with
  | nil =>
    cases h
    simp
  | cons a rest ih =>
    rw [fragments] at h
    split at h
    · obtain ⟨text, after, -, hmore⟩ := exists_of_bind_eq_ok h
      obtain ⟨more, after', hrest, hfilled⟩ := exists_of_bind_eq_ok hmore
      cases hfilled
      rw [List.forall_mem_cons]
      refine ⟨by simp, fun e he => ?_⟩
      rw [List.any_cons, ih (by rw [hrest]) e he, Bool.or_true]
    · intro e he
      rw [List.any_cons, ih h e he, Bool.or_true]

/-- No names but those of arguments are filled in, so that the template need not be told
which names they are. -/
lemma template_eq (d : Definition) : g.template block id d code = do
    let filled ← g.fragments block id code d.args
    return finish d (Template.expand code (Table.ofList filled).get?) := by
  refine bind_congr_of_ok fun busy filled h => ?_
  rw [Template.argumentValue?_ofList (any_name_of_fragments h)]

/-! ### Room to go deeper -/

/-- The busy blocks are different blocks of the workspace, and with the given depth
there is room for one more than the others. -/
structure Room (w : Workspace) (depth : Nat) (busy : List BlockId) : Prop where
  nodup : busy.Nodup
  live : busy ⊆ w.ids
  enough : w.size < depth + busy.length

lemma Room.pos {w : Workspace} {depth : Nat} (h : Room w depth busy) : 0 < depth := by
  have hle := (h.nodup.subperm h.live).length_le
  have hids : w.ids.length = w.size := w.blocks.length_keys
  have := h.enough
  omega

lemma Room.start (w : Workspace) : Room w (w.size + 1) [] where
  nodup := List.nodup_nil
  live := List.nil_subset _
  enough := by simp

lemma Room.push {w : Workspace} {depth : Nat} (h : Room w (depth + 1) busy) (hid : id ∉ busy)
    (hlive : id ∈ w.ids) : Room w depth (id :: busy) where
  nodup := List.nodup_cons.mpr ⟨hid, h.nodup⟩
  live := List.cons_subset.mpr ⟨hlive, h.live⟩
  enough := by
    have := h.enough
    rw [List.length_cons]
    omega

/-- A block yields what its code yields one level below. -/
lemma blockWithin_yields {depth : Nat} {P : Code → Prop} (hroom : Room g.workspace depth busy)
    (hid : id ∉ busy) (hlive : id ∈ g.workspace.ids)
    (hcode : ∀ below, depth = below + 1 → Room g.workspace below (id :: busy) →
      (g.codeOf (g.blockWithin below) id).Yields (id :: busy) P) :
    (g.blockWithin depth id).Yields busy P := by
  cases depth with
  | zero => exact absurd hroom.pos (Nat.lt_irrefl 0)
  | succ below => exact .guarded hid (hcode below rfl (hroom.push hid hlive))

end Generator

end BlockProgram
