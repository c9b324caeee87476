import BlockProgram.Trail
import Mathlib.Tactic

/-!
# Where trails lead

A trail that has room to go on as long as there are points meets each point once,
leads from one to the next, and ends at a point without successor or at one whose
successor has been met. Its points are then all the points that can be reached,
and it comes back to its start just when the steps lead back there.
-/
namespace BlockProgram.Trail

variable {α : Type} {step : α → Option α}

/-! ### The shape of a trail -/

/-- The points are new and different, each leads to the next, and the last leads to
the point that is met again, if there is one. -/
structure Leads (step : α → Option α) (seen : List α) (a : α) (t : Trail α) : Prop where
  first : t.points.head? = some a
  fresh : ∀ p ∈ t.points, p ∉ seen
  nodup : t.points.Nodup
  chain : t.points.IsChain fun x y => step x = some y
  ends : t.points.getLast?.bind step = t.repeats
  again : ∀ r, t.repeats = some r → r ∈ seen ∨ r ∈ t.points

section Chain

variable {points : List α} {a p q : α} (hchain : points.IsChain fun x y => step x = some y)
include hchain

/-- In a list that leads from point to point, the successor of a point is there too,
unless the point is the last. -/
lemma mem_or_getLast?_of_isChain (hp : p ∈ points) (hstep : step p = some q) :
    q ∈ points ∨ points.getLast? = some p := by
  induction points with
  | nil => cases hp
  | cons x rest ih =>
    cases rest with
    | nil =>
      obtain rfl := List.mem_singleton.mp hp
      exact .inr rfl
    | cons y rest =>
      rcases List.mem_cons.mp hp with rfl | hp
      · have hy := hchain.rel
        rw [hstep, Option.some.injEq] at hy
        exact .inl (by simp [hy])
      · rw [List.getLast?_cons_cons]
        exact (ih hchain.tail hp).imp_left (List.mem_cons_of_mem _)

/-- Only the last point can be without successor. -/
lemma getLast?_of_isChain (hp : p ∈ points) (hstep : step p = none) :
    points.getLast? = some p := by
  induction points with
  | nil => cases hp
  | cons x rest ih =>
    cases rest with
    | nil =>
      obtain rfl := List.mem_singleton.mp hp
      rfl
    | cons y rest =>
      rcases List.mem_cons.mp hp with rfl | hp
      · have hy := hchain.rel
        rw [hstep] at hy
        cases hy
      · rw [List.getLast?_cons_cons]
        exact ih hchain.tail hp

/-- There is only one list that leads from a point to where there is no way on. -/
lemma eq_of_isChain {points' : List α} (hchain' : points'.IsChain fun x y => step x = some y)
    (hfirst : points.head? = some a) (hfirst' : points'.head? = some a)
    (hends : points.getLast?.bind step = none) (hends' : points'.getLast?.bind step = none) :
    points' = points := by
  induction points generalizing a points' with
  | nil => cases hfirst
  | cons x rest ih =>
    obtain ⟨rest', rfl⟩ := List.head?_eq_some_iff.mp hfirst'
    obtain rfl : x = a := Option.some.inj hfirst
    cases rest with
    | nil =>
      cases rest' with
      | nil => rfl
      | cons y' rest' =>
        have hstep := hchain'.rel
        rw [List.getLast?_singleton, Option.bind_some, hstep] at hends
        cases hends
    | cons y rest =>
      have hstep := hchain.rel
      cases rest' with
      | nil =>
        rw [List.getLast?_singleton, Option.bind_some, hstep] at hends'
        cases hends'
      | cons y' rest' =>
        have hstep' := hchain'.rel
        rw [hstep, Option.some.injEq] at hstep'
        subst hstep'
        rw [List.getLast?_cons_cons] at hends hends'
        have hrest : y :: rest' = y :: rest :=
          ih hchain.tail hchain'.tail rfl rfl hends hends'
        rw [hrest]

/-- A list that leads from point to point and back into itself cannot be left. -/
lemma mem_of_reaches_of_isChain (hback : ∀ r, points.getLast?.bind step = some r → r ∈ points)
    (ha : a ∈ points) (hp : Relation.ReflTransGen (fun a b => step a = some b) a p) :
    p ∈ points := by
  induction hp with
  | refl => exact ha
  | tail _ hstep ih =>
    rcases mem_or_getLast?_of_isChain hchain ih hstep with hmem | hlast
    · exact hmem
    · exact hback _ (by rw [hlast, Option.bind_some, hstep])

end Chain

namespace Leads

variable {a p : α} {t : Trail α}

lemma exists_last {seen : List α} (h : Leads step seen a t) :
    ∃ last, t.points.getLast? = some last ∧ step last = t.repeats := by
  have hne : t.points ≠ [] := List.ne_nil_of_mem (List.mem_of_mem_head? h.first)
  have hends := h.ends
  rw [List.getLast?_eq_some_getLast hne, Option.bind_some] at hends
  exact ⟨_, List.getLast?_eq_some_getLast hne, hends⟩

lemma mem_of_reaches (h : Leads step [] a t)
    (hp : Relation.ReflTransGen (fun a b => step a = some b) a p) : p ∈ t.points := by
  refine mem_of_reaches_of_isChain h.chain (fun r hr => ?_) (List.mem_of_mem_head? h.first) hp
  rw [h.ends] at hr
  exact (h.again r hr).resolve_left List.not_mem_nil

/-- Where a trail comes back to a point from which there is a way to the start, that
point is the start: the points from it on cannot be left. -/
lemma eq_start_of_back (h : Leads step [] a t) {r : α} (hr : t.repeats = some r)
    (hback : Relation.ReflTransGen (fun a b => step a = some b) r a) : r = a := by
  have hmem : r ∈ t.points := (h.again r hr).resolve_left List.not_mem_nil
  obtain ⟨before, after, hsplit⟩ := List.append_of_mem hmem
  have hchain := h.chain
  have hends := h.ends
  have hnodup := h.nodup
  have hfirst := h.first
  rw [hsplit] at hchain hends hnodup hfirst
  have hround : a ∈ r :: after := by
    refine mem_of_reaches_of_isChain hchain.right_of_append (fun r' hr' => ?_)
      List.mem_cons_self hback
    rw [List.getLast?_append_of_ne_nil _ (List.cons_ne_nil _ _), hr', hr,
      Option.some.injEq] at hends
    simp [hends]
  cases before with
  | nil => simpa using hfirst
  | cons x before =>
    -- the start would be there twice
    have hx : x = a := by simpa using hfirst
    subst hx
    rw [List.cons_append, List.nodup_cons] at hnodup
    exact absurd (List.mem_append_right _ hround) hnodup.1

end Leads

/-! ### Room to go on -/

/-- The step is defined on the given points only, the points seen are different ones
of them, and within the bound there is room for one more than the others. -/
structure Room (step : α → Option α) (points : List α) (bound : Nat) (seen : List α) : Prop where
  domain : ∀ a b, step a = some b → a ∈ points
  nodup : seen.Nodup
  known : seen ⊆ points
  enough : points.length < bound + seen.length

namespace Room

variable {points : List α} {bound : Nat} {seen : List α}

lemma pos (h : Room step points bound seen) : 0 < bound := by
  have hle := (h.nodup.subperm h.known).length_le
  have := h.enough
  omega

lemma start (hdomain : ∀ a b, step a = some b → a ∈ points) :
    Room step points (points.length + 1) [] where
  domain := hdomain
  nodup := List.nodup_nil
  known := List.nil_subset _
  enough := by simp

lemma push {a b : α} (h : Room step points (bound + 1) seen) (ha : a ∉ seen)
    (hstep : step a = some b) : Room step points bound (a :: seen) where
  domain := h.domain
  nodup := List.nodup_cons.mpr ⟨ha, h.nodup⟩
  known := List.cons_subset.mpr ⟨h.domain a b hstep, h.known⟩
  enough := by
    have := h.enough
    rw [List.length_cons]
    omega

end Room

/-! ### Walking -/

variable [DecidableEq α]

lemma reaches_of_mem_walk {bound : Nat} {seen : List α} {a p : α}
    (h : p ∈ (walk step bound seen a).points) :
    Relation.ReflTransGen (fun a b => step a = some b) a p := by
  induction bound generalizing seen a with
  | zero => simp [walk] at h
  | succ bound ih =>
    rw [walk] at h
    split at h
    · simp at h
    · cases hstep : step a with
      | none =>
        simp only [hstep, List.mem_singleton] at h
        rw [h]
      | some b =>
        simp only [hstep, List.mem_cons] at h
        rcases h with rfl | hrest
        · exact .refl
        · exact (ih hrest).head hstep

lemma cycle_of_walk_repeats {bound : Nat} {seen : List α} {a r : α}
    (h : (walk step bound seen a).repeats = some r) :
    Relation.ReflTransGen (fun a b => step a = some b) a r ∧
      (r ∈ seen ∨ Relation.TransGen (fun a b => step a = some b) r r) := by
  induction bound generalizing seen a with
  | zero => simp [walk] at h
  | succ bound ih =>
    rw [walk] at h
    split at h
    · next hseen =>
      simp only [Option.some.injEq] at h
      subst h
      exact ⟨.refl, .inl hseen⟩
    · cases hstep : step a with
      | none => simp [hstep] at h
      | some b =>
        simp only [hstep] at h
        obtain ⟨hreach, hback⟩ := ih h
        refine ⟨hreach.head hstep, ?_⟩
        rcases hback with hmem | hcycle
        · rcases List.mem_cons.mp hmem with rfl | hseen
          · exact .inr (.head' hstep hreach)
          · exact .inl hseen
        · exact .inr hcycle

/-- Where a trail comes back, there is a way round. -/
theorem cycle_of_repeats {size : Nat} {a r : α} (h : (follow step size a).repeats = some r) :
    Relation.TransGen (fun a b => step a = some b) r r :=
  (cycle_of_walk_repeats h).2.resolve_left (List.not_mem_nil)

/-- Steps that agree on all points that can be reached have the same trail, however
much room beyond the necessary there is. -/
lemma walk_congr {step' : α → Option α} {points points' : List α} {bound bound' : Nat}
    {seen : List α} {a : α} (hroom : Room step points bound seen)
    (hroom' : Room step' points' bound' seen)
    (hstep : ∀ p, Relation.ReflTransGen (fun a b => step a = some b) a p → step' p = step p) :
    walk step' bound' seen a = walk step bound seen a := by
  induction bound generalizing bound' seen a with
  | zero => exact absurd hroom.pos (Nat.lt_irrefl 0)
  | succ bound ih =>
    cases bound' with
    | zero => exact absurd hroom'.pos (Nat.lt_irrefl 0)
    | succ bound' =>
      rw [walk, walk]
      by_cases ha : a ∈ seen
      · rw [if_pos ha, if_pos ha]
      · have hagree : step' a = step a := hstep a .refl
        rw [if_neg ha, if_neg ha, hagree]
        cases hb : step a with
        | none => rfl
        | some b =>
          have hrest := ih (hroom.push ha hb) (hroom'.push ha (hagree.trans hb))
            fun p hp => hstep p (hp.head hb)
          simp only [hrest]

lemma length_walk_le (bound : Nat) (seen : List α) (a : α) :
    (walk step bound seen a).points.length ≤ bound := by
  induction bound generalizing seen a with
  | zero => simp [walk]
  | succ bound ih =>
    rw [walk]
    split
    · simp
    · cases step a with
      | none => simp
      | some b =>
        have := ih (a :: seen) b
        simp only [List.length_cons]
        omega

lemma leads_walk {points : List α} {bound : Nat} {seen : List α} {a : α}
    (hroom : Room step points bound seen) (ha : a ∉ seen) :
    Leads step seen a (walk step bound seen a) := by
  induction bound generalizing seen a with
  | zero => exact absurd hroom.pos (Nat.lt_irrefl 0)
  | succ bound ih =>
    rw [walk, if_neg ha]
    cases hstep : step a with
    | none => exact ⟨rfl, by simpa using ha, by simp, by simp, hstep, by simp⟩
    | some b =>
      by_cases hb : b ∈ a :: seen
      · -- the next point has been met, and the trail ends here
        have hpos := (hroom.push ha hstep).pos
        have hrest : walk step bound (a :: seen) b = ⟨[], some b⟩ := by
          cases bound with
          | zero => exact absurd hpos (Nat.lt_irrefl 0)
          | succ bound => rw [walk, if_pos hb]
        simp only [hrest]
        refine ⟨rfl, by simpa using ha, by simp, by simp, hstep, fun r hr => ?_⟩
        cases hr
        simpa [or_comm] using hb
      · have hrest := ih (hroom.push ha hstep) hb
        obtain ⟨rest, hpoints⟩ := List.head?_eq_some_iff.mp hrest.first
        dsimp only
        have hnew : a ∉ (walk step bound (a :: seen) b).points := fun hmem =>
          hrest.fresh a hmem List.mem_cons_self
        refine ⟨rfl, fun p hp hseen => ?_, List.nodup_cons.mpr ⟨hnew, hrest.nodup⟩, ?_, ?_,
          fun r hr => ?_⟩
        · rcases List.mem_cons.mp hp with rfl | hp
          · exact ha hseen
          · exact hrest.fresh p hp (List.mem_cons_of_mem _ hseen)
        · have hchain := hrest.chain
          rw [hpoints] at hchain ⊢
          exact hchain.cons_cons hstep
        · have hends := hrest.ends
          rw [hpoints] at hends ⊢
          rwa [List.getLast?_cons_cons]
        · rcases hrest.again r hr with hmem | hmem
          · rcases List.mem_cons.mp hmem with rfl | hseen
            · exact .inr List.mem_cons_self
            · exact .inl hseen
          · exact .inr (List.mem_cons_of_mem _ hmem)

/-! ### Following to the end -/

section Follow

variable {points : List α} {size : Nat} (hdomain : ∀ a b, step a = some b → a ∈ points)
  (hsize : points.length = size)
include hdomain hsize

lemma leads_follow (a : α) : Leads step [] a (follow step size a) := by
  subst hsize
  exact leads_walk (Room.start hdomain) List.not_mem_nil

theorem mem_follow_iff (a p : α) : p ∈ (follow step size a).points ↔
    Relation.ReflTransGen (fun a b => step a = some b) a p :=
  ⟨reaches_of_mem_walk, (leads_follow hdomain hsize a).mem_of_reaches⟩

/-- The trail ends at a point without successor just when that can be reached. -/
theorem last_follow_eq_iff {a p : α} (hp : step p = none) : (follow step size a).last a = p ↔
    Relation.ReflTransGen (fun a b => step a = some b) a p := by
  have hleads := leads_follow hdomain hsize a
  obtain ⟨last, hlast, -⟩ := hleads.exists_last
  rw [Trail.last, hlast, Option.getD_some, ← mem_follow_iff hdomain hsize]
  constructor
  · rintro rfl
    exact List.mem_of_getLast? hlast
  · intro hmem
    rw [getLast?_of_isChain hleads.chain hmem hp] at hlast
    exact (Option.some.inj hlast).symm

/-- There is one way on from a point only: if it comes to an end, it is the one followed. -/
theorem follow_eq_of_leads {a : α} {way : List α} (h : Leads step [] a ⟨way, none⟩) :
    follow step size a = ⟨way, none⟩ := by
  have hleads := leads_follow hdomain hsize a
  obtain ⟨last, hlast, hstep⟩ := h.exists_last
  have hreach : Relation.ReflTransGen (fun a b => step a = some b) a last := by
    obtain ⟨rest, rfl⟩ := List.head?_eq_some_iff.mp h.first
    refine List.relationReflTransGen_of_exists_isChain_cons rest h.chain ?_
    rw [← Option.some_inj, ← List.getLast?_eq_some_getLast, hlast]
  have hrepeats : (follow step size a).repeats = none := by
    rw [← hleads.ends, getLast?_of_isChain hleads.chain (hleads.mem_of_reaches hreach) hstep]
    exact hstep
  have hpoints : (follow step size a).points = way :=
    eq_of_isChain h.chain hleads.chain h.first hleads.first h.ends (hleads.ends.trans hrepeats)
  rw [← hpoints, ← hrepeats]

/-- The trail comes back to its start just when the steps lead there. -/
theorem repeats_follow_eq_iff (a : α) : (follow step size a).repeats = some a ↔
    Relation.TransGen (fun a b => step a = some b) a a := by
  refine ⟨cycle_of_repeats, fun hround => ?_⟩
  have hleads := leads_follow hdomain hsize a
  -- from each point of the trail there is a way to the start
  have hback (p : α) (hp : p ∈ (follow step size a).points) :
      Relation.TransGen (fun a b => step a = some b) p a := by
    rw [mem_follow_iff hdomain hsize] at hp
    induction hp with
    | refl => exact hround
    | tail _ hstep ih =>
      obtain ⟨q, hq, hqa⟩ := Relation.TransGen.head'_iff.mp ih
      rw [hstep, Option.some.injEq] at hq
      subst hq
      rcases Relation.reflTransGen_iff_eq_or_transGen.mp hqa with rfl | htrans
      · exact hround
      · exact htrans
  obtain ⟨last, hlast, hends⟩ := hleads.exists_last
  obtain ⟨r, hr, hra⟩ := Relation.TransGen.head'_iff.mp (hback last (List.mem_of_getLast? hlast))
  rw [hr] at hends
  rw [← hends, hleads.eq_start_of_back hends.symm hra]

/-! ### Steps that never lead round -/

variable (hround : ∀ a, ¬ Relation.TransGen (fun a b => step a = some b) a a)
include hround

omit hdomain hsize in
lemma repeats_follow_eq_none (a : α) : (follow step size a).repeats = none := by
  cases hrepeats : (follow step size a).repeats with
  | none => rfl
  | some r => exact absurd (cycle_of_repeats hrepeats) (hround r)

lemma exists_end (a : α) :
    ∃ p, Relation.ReflTransGen (fun a b => step a = some b) a p ∧ step p = none := by
  obtain ⟨last, hlast, hends⟩ := (leads_follow hdomain hsize a).exists_last
  refine ⟨last, reaches_of_mem_walk (List.mem_of_getLast? hlast), ?_⟩
  rw [hends, repeats_follow_eq_none hround]

/-- The trail is one point longer than the trail of the next point. -/
lemma follow_points_of_step {a b : α} (hstep : step a = some b) :
    (follow step size a).points = a :: (follow step size b).points := by
  have hends (c : α) : (follow step size c).points.getLast?.bind step = none := by
    rw [(leads_follow hdomain hsize c).ends, repeats_follow_eq_none hround]
  have hnext := leads_follow hdomain hsize b
  obtain ⟨rest, hrest⟩ := List.head?_eq_some_iff.mp hnext.first
  have hchain : (a :: (follow step size b).points).IsChain fun x y => step x = some y := by
    have hchain := hnext.chain
    rw [hrest] at hchain ⊢
    exact hchain.cons_cons hstep
  refine eq_of_isChain hchain (leads_follow hdomain hsize a).chain rfl
    (leads_follow hdomain hsize a).first ?_ (hends a)
  have hend := hends b
  rw [hrest] at hend ⊢
  rwa [List.getLast?_cons_cons]

end Follow

end BlockProgram.Trail
