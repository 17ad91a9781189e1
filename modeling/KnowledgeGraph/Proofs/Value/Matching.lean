import KnowledgeGraph.Proofs.Value.Alike
import KnowledgeGraph.Value.Matching
/-!
# Filters alike are met alike

What a stored value is compared with counts only up to the order of its
fields: comparing looks fields up by their keys. So a bag of properties
meets filters that are alike equally (`all_meet_congr`).
-/

namespace KnowledgeGraph

namespace Value

/-- Comparing a value with others that are alike makes no difference. -/
def SeesAlike (stored : Value) : Prop :=
  ∀ {v w : Value}, v.IsProper → w.IsProper → Alike v w → stored.numericEq v = stored.numericEq w

theorem numericEqItems_congr {as bs cs : List Value} (ih : ∀ a ∈ as, SeesAlike a)
    (hb : ∀ v ∈ bs, v.IsProper) (hc : ∀ v ∈ cs, v.IsProper) (h : List.Forall₂ Alike bs cs) :
    numericEqItems as bs = numericEqItems as cs := by
  induction as generalizing bs cs with
  | nil => cases h <;> rfl
  | cons a as ih' =>
    cases h with
    | nil => rfl
    | cons hhead htail =>
      rw [List.forall_mem_cons] at ih hb hc
      rw [numericEqItems, numericEqItems, ih.1 hb.1 hc.1 hhead, ih' ih.2 hb.2 hc.2 htail]

theorem numericEqFields_congr {fs as bs : Fields} (ih : ∀ f ∈ fs, SeesAlike f.2)
    (ha : (map as).IsProper) (hb : (map bs).IsProper) (h : Alike (.map as) (.map bs)) :
    numericEqFields fs as = numericEqFields fs bs := by
  rw [IsProper, fieldsProper_iff] at ha hb
  induction fs with
  | nil => rfl
  | cons f fs ih' =>
    rw [List.forall_mem_cons] at ih
    rw [numericEqFields, numericEqFields, ih' ih.2]
    rcases lookup_of_alike ha.1 h f.1 with ⟨hfound, hfound'⟩ | ⟨v, w, hfound, hfound', halike⟩
    · rw [hfound, hfound']
    · have hv := ha.2 _ ((mem_iff_lookup ha.1).2 hfound)
      have hw := hb.2 _ ((mem_iff_lookup hb.1).2 hfound')
      rw [hfound, hfound']
      dsimp only
      rw [ih.1 hv hw halike]

/-- **Numeric equality does not see the order of fields** in what it is
asked about. -/
theorem numericEq_congr (stored : Value) : SeesAlike stored := by
  induction stored using Value.induction with
  | list items ih =>
    intro v w hv hw h
    rcases alike_cases h with rfl | ⟨bs, cs, rfl, rfl, hitems⟩ | ⟨as, bs, rfl, rfl, -⟩
    · rfl
    · rw [IsProper, itemsProper_iff] at hv hw
      rw [numericEq, numericEq, numericEqItems_congr ih hv hw hitems]
    · rfl
  | map fields ih =>
    intro v w hv hw h
    rcases alike_cases h with rfl | ⟨bs, cs, rfl, rfl, -⟩ | ⟨as, bs, rfl, rfl, hmaps⟩
    · rfl
    · rfl
    · rw [numericEq, numericEq, length_eq_of_alike hv.1 hw.1 hmaps,
        numericEqFields_congr ih hv hw hmaps]
  | _ =>
    -- a list or a map is worth no number
    intro v w _ _ h
    rcases alike_cases h with rfl | ⟨bs, cs, rfl, rfl, -⟩ | ⟨as, bs, rfl, rfl, -⟩ <;> rfl

end Value

end KnowledgeGraph
