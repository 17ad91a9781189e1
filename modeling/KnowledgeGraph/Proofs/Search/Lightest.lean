import KnowledgeGraph.Proofs.Search.Connecting
import KnowledgeGraph.Proofs.Search.Weighted
/-!
# Paths of least weight

A search by weight knows of each id it found how much a way there weighs,
and the trace is such a way (`Measured.known_of_leads`). Ways that are
replaced go on waiting, but the nearest that is new waits with what is
known of it (`Measured.lookup_nearest`), and whatever is found later is no
nearer. So what is known of a settled id stays.

A sum of weights never shrinks. Hence as long as the goal is not settled
every walk there comes past one that waits, and weighs no less than it has
come to by then (`Tight.exists_waiting`). When the goal is taken it is
the nearest of these, so no walk is lighter (`leastWeight_optimal`). No
more is used of sums than that they are no less than their first term and
grow with it: where they are rounded, or infinite, nothing changes.
-/

namespace KnowledgeGraph

namespace Relationship

/-- The weights of some relationships, one after the other added to what
there is. -/
def weightFrom (total : Binary64) (rels : List Relationship) : Binary64 :=
  rels.foldl (fun total rel => total + rel.weight) total

/-- What some relationships weigh together, added up from the first to the
last. -/
def weightOf (rels : List Relationship) : Binary64 := weightFrom .zero rels

theorem weightFrom_concat (total : Binary64) (rels : List Relationship) (rel : Relationship) :
    weightFrom total (rels ++ [rel]) = weightFrom total rels + rel.weight :=
  List.foldl_concat ..

theorem le_weightFrom {total : Binary64} (h : .zero ≤ total) (rels : List Relationship) :
    total ≤ weightFrom total rels := by
  induction rels generalizing total with
  | nil => exact Binary64.le_refl_of_nonneg h
  | cons rel rels ih =>
    have hstep : total ≤ total + rel.weight := Binary64.le_add h rel.weight_nonneg
    exact Binary64.le_trans hstep (ih (Binary64.le_trans h hstep))

end Relationship

/-- What is found to a goal by weight: the path, with its weight, along a
walk that comes to no id twice and than which none is lighter, or none if
no walk leads there. -/
inductive Repository.LightestPath (r : Repository) (source goal : String) :
    Option Path → Prop where
  | along {places : List ℕ} {steps : Way} :
      r.Walk source places steps goal → (source :: steps.map Prod.snd).Nodup →
      (∀ places' steps', r.Walk source places' steps' goal →
        Relationship.weightOf (steps.map Prod.fst) ≤
          Relationship.weightOf (steps'.map Prod.fst)) →
      LightestPath r source goal
        ((r.pathOf source steps).map (.weighing (Relationship.weightOf (steps.map Prod.fst))))
  | nowhere : ¬ r.Reaches source goal → LightestPath r source goal none

namespace Search

namespace Weighted

open Repository Dialogue

variable {r : Repository} {source id next goal : String} {s s' : State} {rel : Relationship}
  {distance known : Binary64} {taken : Waiting}

/-! ## The nearest -/

theorem Waiting.le_of_before {a b : Waiting} (ha : .zero ≤ a.distance) (hb : .zero ≤ b.distance)
    (h : a.before b = true) : a.distance ≤ b.distance := by
  unfold before at h
  rcases Bool.or_eq_true_iff.1 h with hless | hequal
  · exact Binary64.le_of_lt (of_decide_eq_true hless)
  · have hnot := (Bool.and_eq_true_iff.1 hequal).1
    exact Binary64.le_of_not_lt hb ha (by simpa using hnot)

theorem Waiting.le_of_not_before {a b : Waiting} (ha : .zero ≤ a.distance)
    (hb : .zero ≤ b.distance) (h : ¬ a.before b = true) : b.distance ≤ a.distance := by
  refine Binary64.le_of_not_lt ha hb fun hless => h ?_
  rw [before, decide_eq_true hless, Bool.true_or]

theorem nearest_le {first : Waiting} {others : List Waiting}
    (h : ∀ w ∈ first :: others, Binary64.zero ≤ w.distance) :
    ∀ w ∈ first :: others, (nearest first others).distance ≤ w.distance := by
  induction others generalizing first with
  | nil =>
    intro w hw
    obtain rfl := List.mem_singleton.1 hw
    exact Binary64.le_refl_of_nonneg (h w hw)
  | cons x others ih =>
    obtain ⟨hfirst, hrest⟩ := List.forall_mem_cons.1 h
    obtain ⟨hx, hothers⟩ := List.forall_mem_cons.1 hrest
    rw [nearest]
    by_cases hbefore : x.before first = true
    · rw [if_pos hbefore]
      have hleast := ih hrest
      have hleft := Binary64.le_trans (hleast x List.mem_cons_self)
        (Waiting.le_of_before hx hfirst hbefore)
      exact List.forall_mem_cons.2 ⟨hleft, hleast⟩
    · rw [if_neg hbefore]
      have hleast := ih (List.forall_mem_cons.2 ⟨hfirst, hothers⟩)
      have hleft := Binary64.le_trans (hleast first List.mem_cons_self)
        (Waiting.le_of_not_before hx hfirst hbefore)
      obtain ⟨hhead, htail⟩ := List.forall_mem_cons.1 hleast
      exact List.forall_mem_cons.2 ⟨hhead, List.forall_mem_cons.2 ⟨hleft, htail⟩⟩

theorem Nearest.le {frontier : List Waiting} (h : Nearest taken frontier)
    (hnonneg : ∀ w ∈ frontier, Binary64.zero ≤ w.distance) {w : Waiting} (hw : w ∈ frontier) :
    taken.distance ≤ w.distance := by
  obtain ⟨first, others, rfl, rfl⟩ := h
  exact nearest_le hnonneg w hw

/-! ## What is known -/

/-- What holds of the weights that are known, at any time: they are those
of the ways the trace remembers, what waits has at least the weight it is
known by, and what is settled is no further than anything that waits. -/
structure Measured (source : String) (s : State) : Prop where
  begun : s.distances.lookup source = some .zero
  nonneg : ∀ id known, s.distances.lookup id = some known → .zero ≤ known
  waiting : ∀ w ∈ s.frontier, ∃ known, s.distances.lookup w.id = some known ∧
    (w.distance = known ∨ known < w.distance)
  awaited : ∀ id known, id ∉ s.settled → s.distances.lookup id = some known →
    ∃ w ∈ s.frontier, w.id = id ∧ w.distance = known
  settled : ∀ id ∈ s.settled, ∃ known, s.distances.lookup id = some known ∧
    ∀ w ∈ s.frontier, known ≤ w.distance
  traced : ∀ id known, id ≠ source → s.distances.lookup id = some known →
    ∃ origin ∈ s.settled, ∃ rel before, s.trace.lookup id = some (origin, rel) ∧
      s.distances.lookup origin = some before ∧ known = before + rel.weight

/-- What comes of following some relationships of an id at a distance: what
they lead to is known to be as near as they say, and nothing gets further
away. What is known of the settled stays. -/
structure Lightened (source id : String) (distance : Binary64) (rels : List Relationship)
    (s s' : State) : Prop where
  measured : Measured source s'
  settled : s'.settled = s.settled
  kept : ∀ x ∈ s.settled, s'.distances.lookup x = s.distances.lookup x
  nearer : ∀ x known, s.distances.lookup x = some known →
    ∃ known', s'.distances.lookup x = some known' ∧ known' ≤ known
  reached : ∀ rel ∈ rels, ∀ next, rel.neighborOf id = some next →
    ∃ known, s'.distances.lookup next = some known ∧ known ≤ distance + rel.weight

/-- What is known to be as near as some bound stays so. -/
theorem Lightened.exists_le {rels : List Relationship} (h : Lightened source id distance rels s s')
    {x : String} {bound : Binary64}
    (hx : ∃ known, s.distances.lookup x = some known ∧ known ≤ bound) :
    ∃ known, s'.distances.lookup x = some known ∧ known ≤ bound := by
  obtain ⟨before, hbefore, hle⟩ := hx
  obtain ⟨known, hknown, hle'⟩ := h.nearer x before hbefore
  exact ⟨known, hknown, Binary64.le_trans hle' hle⟩

theorem Lightened.append {rels rels' : List Relationship} {s'' : State}
    (h : Lightened source id distance rels s s') (h' : Lightened source id distance rels' s' s'') :
    Lightened source id distance (rels ++ rels') s s'' := by
  refine ⟨h'.measured, h'.settled.trans h.settled, fun x hx => ?_, fun x known hknown => ?_,
    fun rel hrel next hto => ?_⟩
  · exact (h'.kept x (h.settled ▸ hx)).trans (h.kept x hx)
  · exact h'.exists_le (h.nearer x known hknown)
  · rcases List.mem_append.1 hrel with hrel | hrel
    · exact h'.exists_le (h.reached rel hrel next hto)
    · exact h'.reached rel hrel next hto

/-- Whether an id was the last to be settled, at a distance. -/
structure Last (id : String) (distance : Binary64) (s : State) : Prop where
  settled : id ∈ s.settled
  known : s.distances.lookup id = some distance
  furthest : ∀ x ∈ s.settled, ∀ known, s.distances.lookup x = some known → known ≤ distance

theorem Last.of_kept (h : Last id distance s) (hsettled : s'.settled = s.settled)
    (hkept : ∀ x ∈ s.settled, s'.distances.lookup x = s.distances.lookup x) :
    Last id distance s' := by
  refine ⟨hsettled ▸ h.settled, (hkept id h.settled).trans h.known, fun x hx known hknown => ?_⟩
  rw [hsettled] at hx
  exact h.furthest x hx known ((hkept x hx).symm.trans hknown)

namespace Measured

theorem nonneg_of_mem (h : Measured source s) {w : Waiting} (hw : w ∈ s.frontier) :
    .zero ≤ w.distance := by
  obtain ⟨known, hknown, heq | hless⟩ := h.waiting w hw
  · exact heq ▸ h.nonneg _ _ hknown
  · exact Binary64.le_trans (h.nonneg _ _ hknown) (Binary64.le_of_lt hless)

/-- **What is known of an id is the weight of the way there** that the trace
remembers. -/
theorem known_of_leads (h : Measured source s) {steps : Way} (hleads : s.trace.Leads source id steps)
    (hknown : s.distances.lookup id = some known) :
    known = Relationship.weightOf (steps.map Prod.fst) := by
  induction hleads generalizing known with
  | here => exact Option.some.inj (hknown.symm.trans h.begun)
  | @onward id origin rel steps hid hlookup _ ih =>
    obtain ⟨origin', -, rel', before, htrace, hbefore, hsum⟩ := h.traced id known hid hknown
    obtain ⟨rfl, rfl⟩ := Prod.mk.inj (Option.some.inj (hlookup.symm.trans htrace))
    rw [hsum, ih hbefore, List.map_append, List.map_singleton]
    exact (Relationship.weightFrom_concat ..).symm

/-- **The nearest that is new waits with what is known of it.** -/
theorem lookup_nearest (h : Measured source s) (hnearest : Nearest taken s.frontier)
    (hnew : taken.id ∉ s.settled) : s.distances.lookup taken.id = some taken.distance := by
  obtain ⟨known, hknown, heq | hless⟩ := h.waiting taken hnearest.mem
  · rw [hknown, heq]
  · -- then what is known of it waits as well, and is nearer
    obtain ⟨w, hw, -, hsame⟩ := h.awaited taken.id known hnew hknown
    have hle : taken.distance ≤ w.distance := hnearest.le (fun _ => h.nonneg_of_mem) hw
    exact absurd hless (Binary64.not_lt_of_le (hsame ▸ hle))

/-- What is known and not settled waits. -/
theorem exists_waiting_of_new (h : Measured source s) (hid : id ∉ s.settled)
    (hknown : s.distances.lookup id = some known) {total : Binary64} (hle : known ≤ total)
    (rels : List Relationship) :
    ∃ w ∈ s.frontier, w.distance ≤ Relationship.weightFrom total rels := by
  have hnonneg := Binary64.le_trans (h.nonneg id known hknown) hle
  obtain ⟨w, hw, -, hsame⟩ := h.awaited id known hid hknown
  exact ⟨w, hw, hsame ▸ Binary64.le_trans hle (Relationship.le_weightFrom hnonneg rels)⟩

/-- A relationship leads no nearer than it starts. -/
theorem further (h : Measured source s) (hlast : Last id distance s) (rel : Relationship) :
    distance ≤ distance + rel.weight ∧ .zero ≤ distance + rel.weight := by
  have hnonneg := h.nonneg id distance hlast.known
  have hle : distance ≤ distance + rel.weight := Binary64.le_add hnonneg rel.weight_nonneg
  exact ⟨hle, Binary64.le_trans hnonneg hle⟩

/-! ## Following relationships -/

/-- To follow none changes nothing. -/
theorem lightened (h : Measured source s) (id : String) (distance : Binary64) :
    Lightened source id distance [] s s :=
  ⟨h, rfl, fun _ _ => rfl,
    fun x known hknown => ⟨known, hknown, Binary64.le_refl_of_nonneg (h.nonneg x known hknown)⟩,
    fun _ hrel => nomatch hrel⟩

/-- A better way is known, and waits, in place of any before. -/
theorem enter (h : Measured source s) (hlast : Last id distance s) (hnew : next ∉ s.settled)
    (hbetter : ∀ known, s.distances.lookup next = some known → distance + rel.weight < known) :
    Measured source
      { s with
        distances := (next, distance + rel.weight) :: s.distances
        trace := (next, (id, rel)) :: s.trace
        frontier := s.frontier ++ [⟨distance + rel.weight, s.turns, next⟩]
        turns := s.turns + 1 } := by
  obtain ⟨hfurther, hnonneg⟩ := h.further hlast rel
  have hsettled : ∀ x ∈ s.settled, x ≠ next := fun x hx heq => hnew (heq ▸ hx)
  constructor
  case begun =>
    have hsource : source ≠ next := fun heq =>
      Binary64.not_lt_of_le hnonneg (hbetter .zero (heq ▸ h.begun))
    rw [lookup_cons_of_ne hsource]
    exact h.begun
  case nonneg =>
    intro x known hknown
    by_cases hsame : x = next
    · rw [hsame, List.lookup_cons_self] at hknown
      exact Option.some.inj hknown ▸ hnonneg
    · rw [lookup_cons_of_ne hsame] at hknown
      exact h.nonneg x known hknown
  case waiting =>
    intro w hw
    rcases List.mem_append.1 hw with hw | hw
    · obtain ⟨known, hknown, hwaits⟩ := h.waiting w hw
      by_cases hsame : w.id = next
      · have hless := hbetter known (hsame ▸ hknown)
        rw [hsame, List.lookup_cons_self]
        refine ⟨_, rfl, Or.inr ?_⟩
        rcases hwaits with heq | hless'
        · exact heq ▸ hless
        · exact Binary64.lt_of_lt_of_le hless (Binary64.le_of_lt hless')
      · exact ⟨known, by rwa [lookup_cons_of_ne hsame], hwaits⟩
    · obtain rfl := List.mem_singleton.1 hw
      exact ⟨_, List.lookup_cons_self, Or.inl rfl⟩
  case awaited =>
    intro x known hx hknown
    by_cases hsame : x = next
    · rw [hsame, List.lookup_cons_self] at hknown
      exact ⟨_, List.mem_append_right _ (List.mem_singleton_self _), hsame.symm,
        Option.some.inj hknown⟩
    · rw [lookup_cons_of_ne hsame] at hknown
      obtain ⟨w, hw, hwaits⟩ := h.awaited x known hx hknown
      exact ⟨w, List.mem_append_left _ hw, hwaits⟩
  case settled =>
    intro x hx
    obtain ⟨known, hknown, hle⟩ := h.settled x hx
    refine ⟨known, by rwa [lookup_cons_of_ne (hsettled x hx)], fun w hw => ?_⟩
    rcases List.mem_append.1 hw with hw | hw
    · exact hle w hw
    · obtain rfl := List.mem_singleton.1 hw
      exact Binary64.le_trans (hlast.furthest x hx known hknown) hfurther
  case traced =>
    intro x known hx hknown
    by_cases hsame : x = next
    · rw [hsame, List.lookup_cons_self] at hknown
      refine ⟨id, hlast.settled, rel, distance, ?_, ?_, (Option.some.inj hknown).symm⟩
      · rw [hsame, List.lookup_cons_self]
      · rw [lookup_cons_of_ne (hsettled id hlast.settled)]
        exact hlast.known
    · rw [lookup_cons_of_ne hsame] at hknown
      obtain ⟨origin, horigin, other, before, htrace, hbefore, hsum⟩ := h.traced x known hx hknown
      refine ⟨origin, horigin, other, before, ?_, ?_, hsum⟩
      · rwa [lookup_cons_of_ne hsame]
      · rwa [lookup_cons_of_ne (hsettled origin horigin)]

/-- **To follow a relationship keeps what is known** of the settled, and
brings nearer what it leads to. -/
theorem relax (h : Measured source s) (hlast : Last id distance s) (rel : Relationship) :
    Lightened source id distance [rel] s (Weighted.relax id distance s rel) := by
  obtain ⟨hfurther, hnonneg⟩ := h.further hlast rel
  have hself := (h.lightened id distance).nearer
  rcases relax_cases id distance s rel with ⟨hsame, hnear⟩ | ⟨next, hto, hnew, hbetter, hsame⟩
  · rw [hsame]
    refine ⟨h, rfl, fun _ _ => rfl, hself, fun other hother next hto => ?_⟩
    obtain rfl := List.mem_singleton.1 hother
    rcases hnear next hto with hsettled | ⟨known, hknown, hnot⟩
    · obtain ⟨known, hknown, -⟩ := h.settled next hsettled
      exact ⟨known, hknown, Binary64.le_trans (hlast.furthest next hsettled known hknown) hfurther⟩
    · exact ⟨known, hknown, Binary64.le_of_not_lt hnonneg (h.nonneg next known hknown) hnot⟩
  · rw [hsame]
    refine ⟨h.enter hlast hnew hbetter, rfl, fun x hx => ?_, fun x known hknown => ?_,
      fun other hother x hx => ?_⟩
    · have hne : x ≠ next := fun heq => hnew (heq ▸ hx)
      exact lookup_cons_of_ne hne _
    · by_cases heq : x = next
      · subst heq
        exact ⟨_, List.lookup_cons_self, Binary64.le_of_lt (hbetter known hknown)⟩
      · dsimp only
        rw [lookup_cons_of_ne heq]
        exact hself x known hknown
    · obtain rfl := List.mem_singleton.1 hother
      obtain rfl := Option.some.inj (hto.symm.trans hx)
      exact ⟨_, List.lookup_cons_self, Binary64.le_refl_of_nonneg hnonneg⟩

/-- And so for all relationships of an id. -/
theorem relax_all (h : Measured source s) (hlast : Last id distance s)
    (rels : List Relationship) :
    Lightened source id distance rels s (rels.foldl (Weighted.relax id distance) s) := by
  induction rels generalizing s with
  | nil => exact h.lightened id distance
  | cons rel rels ih =>
    have hfirst := h.relax hlast rel
    exact hfirst.append (ih hfirst.measured (hlast.of_kept hfirst.settled hfirst.kept))

/-! ## Taking the nearest -/

/-- One that is settled need not wait. -/
theorem erase (h : Measured source s) {settled : List String}
    (hmore : ∀ x ∈ s.settled, x ∈ settled) (htaken : taken.id ∈ settled)
    (hsettled : ∀ x ∈ settled, ∃ known, s.distances.lookup x = some known ∧
      ∀ w ∈ s.frontier, known ≤ w.distance) :
    Measured source { s with frontier := s.frontier.erase taken, settled := settled } := by
  constructor
  case begun => exact h.begun
  case nonneg => exact h.nonneg
  case waiting => exact fun w hw => h.waiting w (List.mem_of_mem_erase hw)
  case awaited =>
    intro id known hid hknown
    obtain ⟨w, hw, rfl, hsame⟩ := h.awaited id known (mt (hmore id) hid) hknown
    have hne : w ≠ taken := fun heq => hid (heq ▸ htaken)
    exact ⟨w, (List.mem_erase_of_ne hne).2 hw, rfl, hsame⟩
  case settled =>
    intro x hx
    obtain ⟨known, hknown, hle⟩ := hsettled x hx
    exact ⟨known, hknown, fun w hw => hle w (List.mem_of_mem_erase hw)⟩
  case traced =>
    intro id known hid hknown
    obtain ⟨origin, horigin, htraced⟩ := h.traced id known hid hknown
    exact ⟨origin, hmore origin horigin, htraced⟩

/-- **The nearest is settled at what is known of it**, and nothing was
settled further away. -/
theorem settle (h : Measured source s) (hnearest : Nearest taken s.frontier)
    (hnew : taken.id ∉ s.settled) :
    let s' := { s with frontier := s.frontier.erase taken, settled := taken.id :: s.settled }
    Measured source s' ∧ Last taken.id taken.distance s' := by
  intro s'
  have hknown := h.lookup_nearest hnearest hnew
  have hleast : ∀ w ∈ s.frontier, taken.distance ≤ w.distance := fun w hw =>
    hnearest.le (fun _ => h.nonneg_of_mem) hw
  refine ⟨h.erase (fun x hx => List.mem_cons_of_mem _ hx) List.mem_cons_self ?_,
    List.mem_cons_self, hknown, ?_⟩
  · exact List.forall_mem_cons.2 ⟨⟨_, hknown, hleast⟩, h.settled⟩
  · intro x hx known hother
    rcases List.mem_cons.1 hx with rfl | hx
    · obtain rfl := Option.some.inj (hknown.symm.trans hother)
      exact hleast taken hnearest.mem
    · obtain ⟨known', hknown', hle⟩ := h.settled x hx
      obtain rfl := Option.some.inj (hknown'.symm.trans hother)
      exact hle taken hnearest.mem

end Measured

/-! ## Turns -/

/-- What holds between two turns: a relationship of a settled id leads no
nearer than is known. -/
structure Tight (r : Repository) (source : String) (s : State) : Prop where
  measured : Measured source s
  followed : ∀ id ∈ s.settled, ∀ known, s.distances.lookup id = some known →
    ∀ rel ∈ r.links id, ∀ next, rel.neighborOf id = some next →
      ∃ known', s.distances.lookup next = some known' ∧ known' ≤ known + rel.weight

theorem tight_start (r : Repository) (source : String) : Tight r source (start source) := by
  have honly : ∀ {id known}, (start source).distances.lookup id = some known →
      id = source ∧ known = .zero := by
    intro id known hknown
    obtain ⟨rfl, rfl⟩ := Prod.mk.inj (List.mem_singleton.1 (mem_of_lookup hknown))
    exact ⟨rfl, rfl⟩
  have hsource : (start source).distances.lookup source = some .zero := List.lookup_cons_self
  refine ⟨⟨hsource, fun id known hknown => ?_, fun w hw => ?_, fun id known _ hknown => ?_,
    fun _ hid => (nomatch hid), fun id known hid hknown => ?_⟩, fun _ hid => (nomatch hid)⟩
  · obtain ⟨-, rfl⟩ := honly hknown
    exact Binary64.zero_le_zero
  · obtain rfl := List.mem_singleton.1 hw
    exact ⟨.zero, hsource, Or.inl rfl⟩
  · obtain ⟨rfl, rfl⟩ := honly hknown
    exact ⟨_, List.mem_singleton_self _, rfl, rfl⟩
  · exact absurd (honly hknown).1 hid

namespace Tight

/-- **On the way to what is not settled one comes past what waits**, and has
come to no less than its distance. -/
theorem exists_waiting (h : Tight r source s) {places : List ℕ} {steps : Way}
    (hwalk : r.Walk id places steps goal) (hgoal : goal ∉ s.settled) {total : Binary64}
    (hknown : s.distances.lookup id = some known) (hle : known ≤ total) :
    ∃ w ∈ s.frontier, w.distance ≤ Relationship.weightFrom total (steps.map Prod.fst) := by
  induction hwalk generalizing known total with
  | here => exact h.measured.exists_waiting_of_new hgoal hknown hle _
  | @step id next _ rel _ _ _ hrel hto _ ih =>
    by_cases hid : id ∈ s.settled
    · obtain ⟨known', hknown', hnear⟩ :=
        h.followed id hid known hknown rel (List.mem_of_getElem? hrel) next hto
      have hgrows : known + rel.weight ≤ total + rel.weight :=
        Binary64.add_le_add (h.measured.nonneg id known hknown) rel.weight_nonneg hle
          (Binary64.le_refl_of_nonneg rel.weight_nonneg)
      exact ih hgoal hknown' (Binary64.le_trans hnear hgrows)
    · exact h.measured.exists_waiting_of_new hid hknown hle _

/-- **No walk to what is not settled is lighter than the nearest.** -/
theorem le_weightOf (h : Tight r source s) (hnearest : Nearest taken s.frontier)
    (hgoal : goal ∉ s.settled) {places : List ℕ} {steps : Way}
    (hwalk : r.Walk source places steps goal) :
    taken.distance ≤ Relationship.weightOf (steps.map Prod.fst) := by
  obtain ⟨w, hw, hle⟩ :=
    h.exists_waiting hwalk hgoal h.measured.begun Binary64.zero_le_zero
  exact Binary64.le_trans (hnearest.le (fun _ => h.measured.nonneg_of_mem) hw) hle

/-- Turns leave no relationship out. -/
theorem again (h : Tight r source s) {asked : List GraphQuestion}
    (hturn : Chooses r goal s ⟨asked, .ok (.again s')⟩) : Tight r source s' := by
  cases hturn with
  | passed _ hold =>
    exact ⟨h.measured.erase (fun _ hx => hx) hold h.measured.settled, h.followed⟩
  | @followed taken hnearest hnew _ =>
    obtain ⟨hmeasured, hlast⟩ := h.measured.settle hnearest hnew
    have hall := hmeasured.relax_all hlast (r.links taken.id)
    refine ⟨hall.measured, fun id hid known hknown rel hrel next hto => ?_⟩
    rw [hall.settled] at hid
    rw [hall.kept id hid] at hknown
    rcases List.mem_cons.1 hid with rfl | hid
    · obtain rfl := Option.some.inj (hlast.known.symm.trans hknown)
      exact hall.reached rel hrel next hto
    · exact hall.exists_le (h.followed id hid known hknown rel hrel next hto)

end Tight

/-- What is chosen at least weight: a way to the goal that the trace leads
and that comes to no id twice, with its weight, and no walk is lighter; or
none if the goal cannot be reached. -/
inductive Lightest (r : Repository) (source goal : String) : Option (Trace × Waiting) → Prop where
  | along {trace : Trace} {taken : Waiting} {places : List ℕ} {steps : Way} :
      taken.id = goal → r.Walk source places steps goal → trace.Leads source goal steps →
      (source :: steps.map Prod.snd).Nodup → steps.length ≤ trace.length →
      taken.distance = Relationship.weightOf (steps.map Prod.fst) →
      (∀ places' steps', r.Walk source places' steps' goal →
        taken.distance ≤ Relationship.weightOf (steps'.map Prod.fst)) →
      Lightest r source goal (some (trace, taken))
  | nowhere : ¬ r.Reaches source goal → Lightest r source goal none

/-- A turn that ends has chosen at least weight. -/
theorem Tight.finished (h : Tight r source s) (hrested : Rested r source goal s)
    {asked : List GraphQuestion} {choice : Option (Trace × Waiting)}
    (hturn : Chooses r goal s ⟨asked, .ok (.finished choice)⟩) : Lightest r source goal choice := by
  cases hturn with
  | empty hempty =>
    exact .nowhere fun hreaches => hrested.missed (hrested.settled_of_reaches hempty hreaches)
  | arrived hnearest hnew hgoal =>
    obtain ⟨places, steps, hwalk, hleads, hnodup, hlength⟩ :=
      hrested.settling.exists_way hnearest.mem hnew
    have hweight := h.measured.known_of_leads hleads (h.measured.lookup_nearest hnearest hnew)
    rw [hgoal] at hwalk hleads
    exact .along hgoal hwalk hleads hnodup hlength hweight
      fun _ _ hwalk' => h.le_weightOf hnearest hrested.missed hwalk'

/-- **A way of least weight is chosen**, unless none leads to the goal. -/
theorem play_choose_lightest (hr : r.Surveyable source) (goal : String) :
    ∃ asked choice, (iterate (choose (some goal)) (idBudget r.extent) (start source)).play
      r.answer = ⟨asked, .ok choice⟩ ∧ Lightest r source goal choice :=
  play_choose_of_invariant hr goal (fun _ s => Tight r source s)
    (fun _ choice => Lightest r source goal choice) (tight_start r source)
    (fun _ _ _ _ _ htight hturn => htight.again hturn)
    (fun _ _ _ _ hrested htight hturn => htight.finished hrested hturn)

end Weighted

open Repository Dialogue

variable {r : Repository} {source : String}

/-! ## The lightest path -/

/-- **The search for the least weight finds the path along a lightest
walk**, with its weight, as far as entities are there. -/
theorem outcome_leastWeight_lightest (hr : r.Surveyable source) (target : String) :
    ∃ path?, (r.leastWeight none (.text source) (.text target)).outcome = .ok path? ∧
      r.LightestPath source target path? := by
  rw [Repository.leastWeight, run_none, leastWeightBetween_text]
  by_cases htarget : target = source
  · subst htarget
    refine ⟨r.pathOf target [], ?_, ?_⟩
    · rw [leastWeight, if_pos rfl, stay, GraphDialogue.entity, Dialogue.bind,
        play_ask_of_ok (hr.answer_entity .start), r.pathOf_nil target]
      rfl
    · rw [← r.map_weighing_zero_pathOf]
      exact .along .here (List.nodup_singleton _)
        fun _ steps _ => Relationship.le_weightFrom Binary64.zero_le_zero _
  · obtain ⟨asked, choice, hplay, hchosen⟩ := Weighted.play_choose_lightest hr target
    rw [play_leastWeight_eq htarget, hplay]
    cases hchosen with
    | nowhere hno => exact ⟨none, rfl, .nowhere hno⟩
    | along htaken hwalk hleads hnodup hlength hweight hleast =>
      subst htaken
      rw [hweight] at hleast
      refine ⟨_, ?_, .along hwalk hnodup hleast⟩
      rw [← hweight]
      exact play_pathAlong_walk hr hwalk hleads hlength _

/-- **The search for the least weight finds the lightest path.** Where all
that can be reached is answered for and has its entity, the search finds
no path exactly if no walk leads to the target. Otherwise it finds one that
connects source and target, which weighs what its relationships weigh
together, and no walk between them is lighter. -/
theorem leastWeight_optimal (hr : r.Surveyable source) (hentity : r.Resolves source)
    (target : String) :
    ∃ path?, (r.leastWeight none (.text source) (.text target)).outcome = .ok path? ∧
      (path? = none ↔ ¬ ∃ places steps, r.Walk source places steps target) ∧
      ∀ p ∈ path?, r.Connects source target p ∧
        p.totalWeight = Relationship.weightOf p.relationships ∧
        ∀ places steps, r.Walk source places steps target →
          p.totalWeight ≤ Relationship.weightOf (steps.map Prod.fst) := by
  obtain ⟨path?, houtcome, hlightest⟩ := outcome_leastWeight_lightest hr target
  refine ⟨path?, houtcome, ?_⟩
  cases hlightest with
  | nowhere hno =>
    rw [reaches_iff_exists_walk] at hno
    exact ⟨iff_of_true rfl hno, fun p hp => absurd hp (Option.not_mem_none p)⟩
  | @along places steps hwalk hnodup hleast =>
    obtain ⟨p, hp, hconnects⟩ := hentity.exists_connects hwalk hnodup
    rw [hp, Option.map_some]
    refine ⟨iff_of_false (Option.some_ne_none _) (not_not_intro ⟨places, steps, hwalk⟩), ?_⟩
    intro found hfound
    obtain rfl := Option.some.inj hfound
    have hrels : p.relationships = steps.map Prod.fst := relationships_of_pathOf hp
    exact ⟨hconnects.weighing _, congrArg Relationship.weightOf hrels.symm, hleast⟩

/-- In the graph that winds, the straight relationship from the first to the
last is infinitely heavy, and the way round weighs one. -/
theorem leastWeight_optimal_winding :
    let r := (Store.after windingLog).repository
    r.Surveyable "a" ∧ r.Resolves "a" ∧
    ∃ path?, (r.leastWeight none (.text "a") (.text "d")).outcome = .ok path? ∧
      (path? = none ↔ ¬ ∃ places steps, r.Walk "a" places steps "d") ∧
      ∀ p ∈ path?, r.Connects "a" "d" p ∧
        p.totalWeight = Relationship.weightOf p.relationships ∧
        ∀ places steps, r.Walk "a" places steps "d" →
          p.totalWeight ≤ Relationship.weightOf (steps.map Prod.fst) := by
  intro r
  have hr : r.Surveyable "a" := Store.surveyable_after windingLog "a"
  have hsource : "a" ∈ Addition.introduced windingLog := List.mem_cons_self
  have hentity : r.Resolves "a" := Store.resolves_after hsource
  exact ⟨hr, hentity, leastWeight_optimal hr hentity "d"⟩

end Search

end KnowledgeGraph
