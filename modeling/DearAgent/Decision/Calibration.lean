import DearAgent.Stores
import Mathlib.Algebra.BigOperators.Intervals
import Mathlib.Algebra.Order.BigOperators.Group.Finset
import Mathlib.Data.List.Sort
import Mathlib.Data.Rat.Floor
import Mathlib.Order.Bounds.Basic

/-!
# Calibration of the decision log

`calibrate_records` sorts the labeled records into the bands of their confidence and
recommends a threshold from the bands. The rule it documents is about each band at or
above the threshold, its search about all of them together.
-/

namespace DearAgent.Decision.Calibration

open DearAgent.Lib.Text
open DearAgent.Stores (DecisionRecord)

set_option autoImplicit false

def hundredths (value : ℚ) : Nat :=
  let scaled := |value| * 100
  let whole := ⌊scaled⌋.toNat
  if 1 / 2 < scaled - whole ∨ scaled - whole = 1 / 2 ∧ whole % 2 = 1 then whole + 1 else whole

/-- `f"{value:.2f}"`. -/
def twoPlaces (value : ℚ) : Str :=
  (if value < 0 then ['-'] else []) ++ (toString (hundredths value / 100)).toList ++ ['.'] ++
    (toString (hundredths value / 10 % 10)).toList ++ (toString (hundredths value % 10)).toList

structure ConfidenceBand where
  label : Str
  lower : ℚ
  upper : ℚ
  count : Nat
  correct : Nat
deriving DecidableEq

def ConfidenceBand.accuracy (band : ConfidenceBand) : Option ℚ :=
  if band.count ≠ 0 then some (band.correct / band.count) else none

structure CalibrationReport where
  questionId : Str
  total : Nat := 0
  labeled : Nat := 0
  correct : Nat := 0
  bands : List ConfidenceBand := []
  recommendedThreshold : Option ℚ := none
deriving DecidableEq

def CalibrationReport.accuracy (report : CalibrationReport) : Option ℚ :=
  if report.labeled ≠ 0 then some (report.correct / report.labeled) else none

/-- The confidence of a counted record, and whether its answer is right. -/
abbrev Scored := ℚ × Bool

def rightOnes (entries : List Scored) : Nat := entries.countP Prod.snd

/-- `sorted(set(bands))`. -/
def sortedEdges (bands : List ℚ) : List ℚ := bands.dedup.insertionSort (· ≤ ·)

def bucketIndex (confidence : ℚ) (edges : List ℚ) : Nat :=
  edges.zipIdx.foldl (fun index edge => if edge.1 ≤ confidence then edge.2 else index) 0

/-- `buckets[index].append(entry)`. -/
def addTo (buckets : List (List Scored)) (index : Nat) (entry : Scored) :
    Except Exn (List (List Scored)) :=
  if index < buckets.length then .ok (buckets.modify index (· ++ [entry]))
  else .error (.otherException "IndexError" "list index out of range")

/-- `isinstance(answer, dict)`. -/
def asDict : Option Json → Option (List (Str × Json))
  | some (.object fields) => some fields
  | _ => none

/-- `answer.get(key)`, where a `null` is `None` too. -/
def given (answer : List (Str × Json)) (key : Str) : Option Json :=
  match answer.lookup key with
  | some .null => none
  | value => value

/-- `choice == label`. -/
def saysLabel (label : Str) : Option Json → Bool
  | some (.string choice) => choice = label
  | _ => false

section Records

-- `float(confidence)`, as an exact rational
variable (number : Json → ℚ)

def tally (questionId : Str) (edges : List ℚ) (soFar : CalibrationReport × List (List Scored))
    (record : DecisionRecord) : Except Exn (CalibrationReport × List (List Scored)) :=
  match asDict (record.answers.lookup questionId) with
  | none => .ok soFar
  | some answer =>
      let report := { soFar.1 with total := soFar.1.total + 1 }
      match record.label with
      | none => .ok (report, soFar.2)
      | some label =>
          match given answer "confidence" with
          | none => .ok (report, soFar.2)
          | some confidence => do
              let correct := saysLabel label (given answer "choice")
              let report := { report with
                labeled := report.labeled + 1
                correct := report.correct + correct.toNat }
              let buckets ← addTo soFar.2 (bucketIndex (number confidence) edges)
                (number confidence, correct)
              return (report, buckets)

def bandsOf (edges : List ℚ) (buckets : List (List Scored)) : List ConfidenceBand :=
  edges.zipIdx.map fun edge =>
    let upper := edges.getD (edge.2 + 1) 1
    let entries := buckets.getD edge.2 []
    { label := twoPlaces edge.1 ++ ['-'] ++ twoPlaces upper
      lower := edge.1
      upper := upper
      count := entries.length
      correct := rightOnes entries }

/-- The test `_recommend` makes at one edge, over the bands from there on as one. -/
def meetsAbove (buckets : List (List Scored)) (target : ℚ) (index : Nat) : Bool :=
  let above := (buckets.drop index).flatten
  !above.isEmpty && decide (target ≤ (rightOnes above : ℚ) / above.length)

def recommend (edges : List ℚ) (buckets : List (List Scored)) (target : ℚ) : Option ℚ := do
  let index ← (List.range edges.length).find? (meetsAbove buckets target)
  edges[index]?

def calibrateRecords (records : List DecisionRecord) (questionId : Str) (bands : List ℚ)
    (target : ℚ) : Except Exn CalibrationReport := do
  let edges := sortedEdges bands
  let (report, buckets) ← records.foldlM (tally number questionId edges)
    ({ questionId := questionId }, edges.map fun _ => [])
  return { report with
    bands := bandsOf edges buckets
    recommendedThreshold := recommend edges buckets target }

/-!
## The bands of the counted records
-/

/-- What a record counts as: it is labeled, and answers the question with a confidence. -/
def scored (questionId : Str) (record : DecisionRecord) : Option Scored := do
  let answer ← asDict (record.answers.lookup questionId)
  let label ← record.label
  let confidence ← given answer "confidence"
  some (number confidence, saysLabel label (given answer "choice"))

def countedRecords (questionId : Str) (records : List DecisionRecord) : List Scored :=
  records.filterMap (scored number questionId)

def inBand (edges : List ℚ) (counted : List Scored) (index : Nat) : List Scored :=
  counted.filter fun entry => bucketIndex entry.1 edges = index

def bucketsOf (edges : List ℚ) (counted : List Scored) : List (List Scored) :=
  (List.range edges.length).map (inBand edges counted)

theorem buckets_length (edges : List ℚ) (counted : List Scored) :
    (bucketsOf edges counted).length = edges.length := by
  rw [bucketsOf, List.length_map, List.length_range]

theorem last_edge_index (confidence : ℚ) (edges : List ℚ) (start first : Nat) :
    (edges.zipIdx start).foldl
        (fun index edge => if edge.1 ≤ confidence then edge.2 else index) first = first ∨
      (edges.zipIdx start).foldl
        (fun index edge => if edge.1 ≤ confidence then edge.2 else index) first <
        start + edges.length := by
  induction edges generalizing start first with
  | nil => exact .inl rfl
  | cons edge rest ih =>
      rw [List.zipIdx_cons, List.foldl_cons, List.length_cons]
      split_ifs with reached
      · right
        rcases ih (start + 1) start with stays | below
        · rw [stays]
          omega
        · exact lt_of_lt_of_eq below (by omega)
      · rcases ih (start + 1) first with stays | below
        · exact .inl stays
        · exact .inr (lt_of_lt_of_eq below (by omega))

theorem bucket_index_lt (confidence : ℚ) {edges : List ℚ} (some_edge : edges ≠ []) :
    bucketIndex confidence edges < edges.length := by
  have positive : 0 < edges.length := List.length_pos_of_ne_nil some_edge
  rcases last_edge_index confidence edges 0 0 with first | below
  · rw [bucketIndex, first]
    exact positive
  · rw [bucketIndex]
    omega

theorem add_to_buckets {edges : List ℚ} (counted : List Scored) (entry : Scored)
    (some_edge : edges ≠ []) :
    addTo (bucketsOf edges counted) (bucketIndex entry.1 edges) entry =
      .ok (bucketsOf edges (counted ++ [entry])) := by
  have inside := bucket_index_lt entry.1 some_edge
  rw [addTo, if_pos (by rw [buckets_length]; exact inside)]
  congr 1
  apply List.ext_getElem?
  intro index
  rw [List.getElem?_modify, bucketsOf, bucketsOf, List.getElem?_map, List.getElem?_map]
  by_cases below : index < edges.length
  · rw [List.getElem?_range below]
    simp only [Option.map_some, inBand, List.filter_append]
    by_cases here : bucketIndex entry.1 edges = index
    · simp [here]
    · simp [here]
  · rw [List.getElem?_eq_none (by simpa using below)]
    simp

def addScored (edges : List ℚ) (buckets : List (List Scored)) :
    Option Scored → Except Exn (List (List Scored))
  | none => .ok buckets
  | some entry => addTo buckets (bucketIndex entry.1 edges) entry

theorem tally_scored (questionId : Str) (edges : List ℚ) (report : CalibrationReport)
    (buckets : List (List Scored)) (record : DecisionRecord) :
    ∃ later, tally number questionId edges (report, buckets) record =
      (addScored edges buckets (scored number questionId record)).map fun added =>
        (later, added) := by
  rw [tally, scored]
  cases asDict (record.answers.lookup questionId) with
  | none => exact ⟨report, rfl⟩
  | some answer =>
      cases record.label with
      | none => exact ⟨_, rfl⟩
      | some label =>
          dsimp only [Option.bind_eq_bind, Option.bind_some]
          cases given answer "confidence" with
          | none => exact ⟨_, rfl⟩
          | some confidence => exact ⟨_, rfl⟩

theorem tallied {edges : List ℚ} (some_edge : edges ≠ []) (questionId : Str)
    (report : CalibrationReport) (counted : List Scored) (records : List DecisionRecord) :
    ∃ later, records.foldlM (tally number questionId edges) (report, bucketsOf edges counted) =
      .ok (later, bucketsOf edges (counted ++ countedRecords number questionId records)) := by
  induction records generalizing report counted with
  | nil => exact ⟨report, by rw [countedRecords, List.filterMap_nil, List.append_nil]; rfl⟩
  | cons record rest ih =>
      obtain ⟨later, stepped⟩ :=
        tally_scored number questionId edges report (bucketsOf edges counted) record
      rw [List.foldlM_cons, stepped, countedRecords, List.filterMap_cons]
      cases scored number questionId record with
      | none => exact ih later counted
      | some entry =>
          rw [addScored, add_to_buckets counted entry some_edge]
          have rested := ih later (counted ++ [entry])
          rw [List.append_assoc] at rested
          exact rested

/-- Without an edge there is no bucket, and the first counted record fails the loop. -/
theorem tallied_no_edge (questionId : Str) (report : CalibrationReport)
    (records : List DecisionRecord) :
    (∃ later, records.foldlM (tally number questionId []) (report, []) = .ok later) ↔
      countedRecords number questionId records = [] := by
  induction records generalizing report with
  | nil => exact iff_of_true ⟨_, rfl⟩ rfl
  | cons record rest ih =>
      obtain ⟨later, stepped⟩ := tally_scored number questionId [] report [] record
      rw [List.foldlM_cons, stepped, countedRecords, List.filterMap_cons]
      cases scored number questionId record with
      | none => exact ih later
      | some entry =>
          apply iff_of_false
          · intro passes
            obtain ⟨later, passed⟩ := passes
            cases passed
          · exact List.cons_ne_nil _ _

end Records

/-!
## What the documented rule asks
-/

/-- Every band at or above the edge with a counted record meets the target, and one has
such a record. -/
def Earned (target : ℚ) (report : CalibrationReport) (edge : ℚ) : Prop :=
  (∀ band ∈ report.bands, edge ≤ band.lower →
    ∀ accuracy, band.accuracy = some accuracy → target ≤ accuracy) ∧
  ∃ band ∈ report.bands, edge ≤ band.lower ∧ band.count ≠ 0

/-- The recommendation is the lowest edge the rule allows, and nothing if there is none. -/
def RecommendsEarned (number : Json → ℚ) (records : List DecisionRecord) (questionId : Str)
    (bands : List ℚ) (target : ℚ) : Prop :=
  ∃ report, calibrateRecords number records questionId bands target = .ok report ∧
    ∀ edge, report.recommendedThreshold = some edge ↔
      IsLeast {edge | edge ∈ bands ∧ Earned target report edge} edge

/-- How many right answers some records have beyond the target. -/
def surplus (target : ℚ) (entries : List Scored) : ℚ :=
  rightOnes entries - target * entries.length

/-- The bands beside a band that misses the target never make up for it. -/
def NoneOutweighed (edges : List ℚ) (counted : List Scored) (target : ℚ) : Prop :=
  ∀ first band, first ≤ band → band < edges.length →
    surplus target (inBand edges counted band) < 0 →
    ∑ index ∈ Finset.Ico first edges.length, surplus target (inBand edges counted index) < 0

section Rule

variable {target : ℚ} {edges : List ℚ} {counted : List Scored}

theorem surplus_append (target : ℚ) (first second : List Scored) :
    surplus target (first ++ second) = surplus target first + surplus target second := by
  simp only [surplus, rightOnes, List.countP_append, List.length_append]
  push_cast
  ring

theorem meets_iff_surplus {entries : List Scored} (some_entry : entries ≠ []) :
    target ≤ (rightOnes entries : ℚ) / entries.length ↔ 0 ≤ surplus target entries := by
  have positive : (0 : ℚ) < entries.length := by
    exact_mod_cast List.length_pos_of_ne_nil some_entry
  rw [le_div_iff₀ positive, surplus, sub_nonneg]

theorem surplus_nil (target : ℚ) : surplus target [] = 0 := by
  simp [surplus, rightOnes]

theorem surplus_flatten (target : ℚ) (buckets : List (List Scored)) :
    surplus target buckets.flatten = (buckets.map (surplus target)).sum := by
  induction buckets with
  | nil => exact surplus_nil target
  | cons bucket rest ih => rw [List.flatten_cons, surplus_append, ih, List.map_cons, List.sum_cons]

/-- The bands from an index on have a counted record. -/
def SomeAbove (edges : List ℚ) (counted : List Scored) (first : Nat) : Prop :=
  ∃ index, first ≤ index ∧ index < edges.length ∧ inBand edges counted index ≠ []

/-- The bands from an index on all meet the target. -/
def AllMeet (target : ℚ) (edges : List ℚ) (counted : List Scored) (first : Nat) : Prop :=
  ∀ index, first ≤ index → index < edges.length →
    0 ≤ surplus target (inBand edges counted index)

theorem buckets_above (first : Nat) :
    (bucketsOf edges counted).drop first =
      (List.range' first (edges.length - first)).map (inBand edges counted) := by
  rw [bucketsOf, ← List.map_drop, List.range_eq_range', List.drop_range', Nat.zero_add,
    Nat.mul_one]

theorem surplus_above (first : Nat) :
    surplus target ((bucketsOf edges counted).drop first).flatten =
      ∑ index ∈ Finset.Ico first edges.length, surplus target (inBand edges counted index) := by
  rw [surplus_flatten, buckets_above, List.map_map]
  rfl

theorem meets_above_iff (first : Nat) :
    meetsAbove (bucketsOf edges counted) target first = true ↔
      SomeAbove edges counted first ∧
      0 ≤ ∑ index ∈ Finset.Ico first edges.length, surplus target (inBand edges counted index) := by
  have some_iff : ((bucketsOf edges counted).drop first).flatten ≠ [] ↔
      SomeAbove edges counted first := by
    rw [buckets_above, List.flatten_ne_nil_iff]
    constructor
    · intro given
      obtain ⟨bucket, member, some_entry⟩ := given
      obtain ⟨index, inside, rfl⟩ := List.mem_map.mp member
      rw [List.mem_range'_1] at inside
      exact ⟨index, inside.1, by omega, some_entry⟩
    · intro given
      obtain ⟨index, above, below, some_entry⟩ := given
      have inside : index ∈ List.range' first (edges.length - first) := by
        rw [List.mem_range'_1]
        omega
      exact ⟨_, List.mem_map_of_mem inside, some_entry⟩
  rw [meetsAbove, Bool.and_eq_true, Bool.not_eq_true', List.isEmpty_eq_false_iff,
    decide_eq_true_eq, some_iff]
  apply and_congr_right
  intro some_above
  rw [meets_iff_surplus (some_iff.mpr some_above), surplus_above]

theorem none_outweighed_iff :
    NoneOutweighed edges counted target ↔ ∀ first,
      0 ≤ ∑ index ∈ Finset.Ico first edges.length, surplus target (inBand edges counted index) →
        AllMeet target edges counted first := by
  constructor
  · intro outweighed first together band above below
    by_contra misses
    exact not_le.mpr (outweighed first band above below (not_le.mp misses)) together
  · intro all_meet first band above below misses
    by_contra together
    exact not_le.mpr misses (all_meet first (not_lt.mp together) band above below)

/-- What the rule asks of an edge, by its index. -/
def Allowed (target : ℚ) (edges : List ℚ) (counted : List Scored) (first : Nat) : Prop :=
  SomeAbove edges counted first ∧ AllMeet target edges counted first

theorem meets_above_of_allowed {first : Nat} (allowed : Allowed target edges counted first) :
    meetsAbove (bucketsOf edges counted) target first = true := by
  rw [meets_above_iff]
  constructor
  · exact allowed.1
  · apply Finset.sum_nonneg
    intro index inside
    rw [Finset.mem_Ico] at inside
    exact allowed.2 index inside.1 inside.2

/-- Two properties of the indices, one asking for more, have the same least index exactly
if they are the same, provided that above an index with the one they are. -/
theorem same_least_iff {weak strong : Nat → Prop} (weaker : ∀ index, strong index → weak index)
    (upward : ∀ low high, low ≤ high → strong low → weak high → strong high) :
    (∀ index, IsLeast {n | weak n} index ↔ IsLeast {n | strong n} index) ↔
      ∀ index, weak index → strong index := by
  classical
  constructor
  · intro same index is_weak
    have least : IsLeast {n | weak n} (Nat.find ⟨index, is_weak⟩) :=
      ⟨Nat.find_spec ⟨index, is_weak⟩, fun _ other => Nat.find_min' _ other⟩
    exact upward _ index (least.2 is_weak) ((same _).mp least).1 is_weak
  · intro all_strong index
    have same : {n | weak n} = {n | strong n} :=
      Set.ext fun n => ⟨all_strong n, weaker n⟩
    rw [same]

theorem allowed_upward {low high : Nat} (above : low ≤ high)
    (allowed : Allowed target edges counted low) (some_above : SomeAbove edges counted high) :
    Allowed target edges counted high :=
  ⟨some_above, fun index reached below => allowed.2 index (above.trans reached) below⟩

theorem least_same_iff :
    (∀ index, IsLeast {n | meetsAbove (bucketsOf edges counted) target n = true} index ↔
      IsLeast {n | Allowed target edges counted n} index) ↔
      NoneOutweighed edges counted target := by
  rw [same_least_iff (fun _ allowed => meets_above_of_allowed allowed)
    (fun low high above allowed meets =>
      allowed_upward above allowed ((meets_above_iff high).mp meets).1), none_outweighed_iff]
  constructor
  · intro all_allowed first together index above below
    by_cases some_above : SomeAbove edges counted first
    · exact (all_allowed first ((meets_above_iff first).mpr ⟨some_above, together⟩)).2 index above
        below
    · have empty : inBand edges counted index = [] := by
        by_contra some_entry
        exact some_above ⟨index, above, below, some_entry⟩
      rw [empty, surplus_nil]
  · intro all_meet first meets
    have meets := (meets_above_iff first).mp meets
    exact ⟨meets.1, all_meet first meets.2⟩

/-!
## The edges and the report
-/

theorem sorted_edges_increasing (bands : List ℚ) : (sortedEdges bands).Pairwise (· < ·) := by
  have ordered : (sortedEdges bands).Pairwise (· ≤ ·) := List.pairwise_insertionSort _ _
  have distinct : (sortedEdges bands).Nodup :=
    (List.perm_insertionSort _ _).nodup_iff.mpr (List.nodup_dedup bands)
  exact ordered.imp₂ (fun _ _ low different => lt_of_le_of_ne low different) distinct

theorem mem_sorted_edges (edge : ℚ) (bands : List ℚ) : edge ∈ sortedEdges bands ↔ edge ∈ bands := by
  rw [sortedEdges, List.mem_insertionSort, List.mem_dedup]

theorem sorted_edges_eq_nil (bands : List ℚ) : sortedEdges bands = [] ↔ bands = [] := by
  rw [List.eq_nil_iff_forall_not_mem, List.eq_nil_iff_forall_not_mem]
  exact forall_congr' fun edge => not_congr (mem_sorted_edges edge bands)

theorem edge_le_iff (increasing : edges.Pairwise (· < ·)) {first second : Nat} {low high : ℚ}
    (at_first : edges[first]? = some low) (at_second : edges[second]? = some high) :
    low ≤ high ↔ first ≤ second := by
  obtain ⟨first_inside, rfl⟩ := List.getElem?_eq_some_iff.mp at_first
  obtain ⟨second_inside, rfl⟩ := List.getElem?_eq_some_iff.mp at_second
  have sorted := List.pairwise_iff_getElem.mp increasing
  constructor
  · intro low
    by_contra above
    exact absurd (sorted _ _ second_inside first_inside (not_le.mp above)) (not_lt.mpr low)
  · intro below
    rcases Nat.eq_or_lt_of_le below with rfl | under
    · exact le_rfl
    · exact (sorted _ _ first_inside second_inside under).le

theorem mem_bands_of {band : ConfidenceBand} :
    band ∈ bandsOf edges (bucketsOf edges counted) ↔
      ∃ index lower, edges[index]? = some lower ∧
        band = { label := twoPlaces lower ++ ['-'] ++ twoPlaces (edges.getD (index + 1) 1)
                 lower := lower
                 upper := edges.getD (index + 1) 1
                 count := (inBand edges counted index).length
                 correct := rightOnes (inBand edges counted index) } := by
  have bucket {index : Nat} {lower : ℚ} (here : edges[index]? = some lower) :
      (bucketsOf edges counted).getD index [] = inBand edges counted index := by
    obtain ⟨inside, _⟩ := List.getElem?_eq_some_iff.mp here
    rw [List.getD_eq_getElem?_getD, bucketsOf, List.getElem?_map, List.getElem?_range inside]
    rfl
  rw [bandsOf, List.mem_map]
  constructor
  · intro given
    obtain ⟨⟨lower, index⟩, member, rfl⟩ := given
    have here := List.mk_mem_zipIdx_iff_getElem?.mp member
    exact ⟨index, lower, here, by rw [bucket here]⟩
  · intro given
    obtain ⟨index, lower, here, rfl⟩ := given
    exact ⟨(lower, index), List.mk_mem_zipIdx_iff_getElem?.mpr here, by rw [bucket here]⟩

theorem earned_iff_allowed (increasing : edges.Pairwise (· < ·)) {report : CalibrationReport}
    (bands : report.bands = bandsOf edges (bucketsOf edges counted)) {first : Nat} {edge : ℚ}
    (at_first : edges[first]? = some edge) :
    Earned target report edge ↔ Allowed target edges counted first := by
  have meets (index : Nat) (lower : ℚ) :
      (∀ accuracy, ConfidenceBand.accuracy
          { label := twoPlaces lower ++ ['-'] ++ twoPlaces (edges.getD (index + 1) 1)
            lower := lower
            upper := edges.getD (index + 1) 1
            count := (inBand edges counted index).length
            correct := rightOnes (inBand edges counted index) } = some accuracy →
          target ≤ accuracy) ↔ 0 ≤ surplus target (inBand edges counted index) := by
    rw [ConfidenceBand.accuracy]
    dsimp only
    split_ifs with some_entry
    · rw [← meets_iff_surplus (List.ne_nil_of_length_pos (Nat.pos_of_ne_zero some_entry))]
      constructor
      · exact fun all => all _ rfl
      · intro meets accuracy same
        rw [← Option.some.inj same]
        exact meets
    · rw [List.eq_nil_of_length_eq_zero (not_not.mp some_entry), surplus_nil]
      exact iff_of_true (fun _ never => never.elim) le_rfl
  rw [Earned, Allowed, and_comm, bands]
  apply and_congr
  · constructor
    · intro given
      obtain ⟨band, member, above, some_entry⟩ := given
      obtain ⟨index, lower, here, rfl⟩ := mem_bands_of.mp member
      obtain ⟨inside, _⟩ := List.getElem?_eq_some_iff.mp here
      exact ⟨index, (edge_le_iff increasing at_first here).mp above, inside,
        List.ne_nil_of_length_pos (Nat.pos_of_ne_zero some_entry)⟩
    · intro given
      obtain ⟨index, above, inside, some_entry⟩ := given
      have here : edges[index]? = some edges[index] := List.getElem?_eq_getElem inside
      exact ⟨_, mem_bands_of.mpr ⟨index, _, here, rfl⟩,
        (edge_le_iff increasing at_first here).mpr above,
        (List.length_pos_of_ne_nil some_entry).ne'⟩
  · constructor
    · intro all index above inside
      have here : edges[index]? = some edges[index] := List.getElem?_eq_getElem inside
      exact (meets index _).mp (all _ (mem_bands_of.mpr ⟨index, _, here, rfl⟩)
        ((edge_le_iff increasing at_first here).mpr above))
    · intro all band member above
      obtain ⟨index, lower, here, rfl⟩ := mem_bands_of.mp member
      obtain ⟨inside, _⟩ := List.getElem?_eq_some_iff.mp here
      exact (meets index lower).mpr
        (all index ((edge_le_iff increasing at_first here).mp above) inside)

theorem allowed_inside {first : Nat} (allowed : Allowed target edges counted first) :
    first < edges.length := by
  obtain ⟨⟨index, above, inside, _⟩, _⟩ := allowed
  exact lt_of_le_of_lt above inside

theorem recommend_eq_some_iff (edge : ℚ) :
    recommend edges (bucketsOf edges counted) target = some edge ↔
      ∃ index, IsLeast {n | meetsAbove (bucketsOf edges counted) target n = true} index ∧
        edges[index]? = some edge := by
  rw [recommend, Option.bind_eq_bind, Option.bind_eq_some_iff]
  apply exists_congr
  intro index
  apply and_congr_left
  intro here
  obtain ⟨inside, _⟩ := List.getElem?_eq_some_iff.mp here
  rw [List.find?_range_eq_some]
  constructor
  · intro found
    refine ⟨found.1, fun other meets => ?_⟩
    by_contra below
    have fails := found.2.2 other (not_le.mp below)
    rw [Bool.not_eq_true', Set.mem_ofPred_eq.mp meets] at fails
    exact Bool.noConfusion fails
  · intro least
    refine ⟨least.1, List.mem_range.mpr inside, fun other below => ?_⟩
    rw [Bool.not_eq_true', ← Bool.not_eq_true]
    exact fun meets => not_le.mpr below (least.2 meets)

theorem least_earned_iff (increasing : edges.Pairwise (· < ·)) {report : CalibrationReport}
    (bands : report.bands = bandsOf edges (bucketsOf edges counted)) (edge : ℚ) :
    IsLeast {edge | edge ∈ edges ∧ Earned target report edge} edge ↔
      ∃ index, IsLeast {n | Allowed target edges counted n} index ∧ edges[index]? = some edge := by
  constructor
  · intro least
    obtain ⟨index, here⟩ := List.getElem?_of_mem least.1.1
    refine ⟨index, ⟨(earned_iff_allowed increasing bands here).mp least.1.2, ?_⟩, here⟩
    intro other allowed
    have inside : other < edges.length := allowed_inside allowed
    have there : edges[other]? = some edges[other] := List.getElem?_eq_getElem inside
    apply (edge_le_iff increasing here there).mp
    exact least.2 ⟨List.getElem_mem _, (earned_iff_allowed increasing bands there).mpr allowed⟩
  · intro given
    obtain ⟨index, least, here⟩ := given
    refine ⟨⟨List.mem_of_getElem? here, (earned_iff_allowed increasing bands here).mpr least.1⟩, ?_⟩
    intro other earned
    obtain ⟨place, there⟩ := List.getElem?_of_mem earned.1
    apply (edge_le_iff increasing here there).mpr
    exact least.2 ((earned_iff_allowed increasing bands there).mp earned.2)

/-- Two properties of indices give the same edge exactly if they have the same least index. -/
theorem least_edges_iff (increasing : edges.Pairwise (· < ·)) {first second : Nat → Prop}
    (first_inside : ∀ index, first index → index < edges.length)
    (second_inside : ∀ index, second index → index < edges.length) :
    (∀ edge, (∃ index, IsLeast {n | first n} index ∧ edges[index]? = some edge) ↔
      ∃ index, IsLeast {n | second n} index ∧ edges[index]? = some edge) ↔
      ∀ index, IsLeast {n | first n} index ↔ IsLeast {n | second n} index := by
  have transfer {one other : Nat → Prop} (inside : ∀ index, one index → index < edges.length)
      (same : ∀ edge, (∃ index, IsLeast {n | one n} index ∧ edges[index]? = some edge) →
        ∃ index, IsLeast {n | other n} index ∧ edges[index]? = some edge) (index : Nat)
      (least : IsLeast {n | one n} index) : IsLeast {n | other n} index := by
    have within : index < edges.length := inside index least.1
    have here : edges[index]? = some edges[index] := List.getElem?_eq_getElem within
    obtain ⟨place, least_there, there⟩ := same _ ⟨index, least, here⟩
    have equal : place = index :=
      Nat.le_antisymm ((edge_le_iff increasing there here).mp le_rfl)
        ((edge_le_iff increasing here there).mp le_rfl)
    rw [← equal]
    exact least_there
  constructor
  · intro same index
    exact ⟨transfer first_inside (fun edge => (same edge).mp) index,
      transfer second_inside (fun edge => (same edge).mpr) index⟩
  · intro same edge
    exact exists_congr fun index => and_congr_left fun _ => same index

theorem meets_above_inside {first : Nat}
    (meets : meetsAbove (bucketsOf edges counted) target first = true) : first < edges.length := by
  obtain ⟨⟨index, above, inside, _⟩, _⟩ := (meets_above_iff first).mp meets
  exact lt_of_le_of_lt above inside

theorem report_earned_iff (increasing : edges.Pairwise (· < ·)) {report : CalibrationReport}
    (bands : report.bands = bandsOf edges (bucketsOf edges counted))
    (recommended :
      report.recommendedThreshold = recommend edges (bucketsOf edges counted) target) :
    (∀ edge, report.recommendedThreshold = some edge ↔
      IsLeast {edge | edge ∈ edges ∧ Earned target report edge} edge) ↔
      NoneOutweighed edges counted target := by
  rw [← least_same_iff, ← @least_edges_iff edges increasing
    (fun index => meetsAbove (bucketsOf edges counted) target index = true)
    (Allowed target edges counted) (fun _ => meets_above_inside) (fun _ => allowed_inside)]
  apply forall_congr'
  intro edge
  rw [recommended, recommend_eq_some_iff, least_earned_iff increasing bands]

end Rule

/-- The recommendation is what the documented rule says exactly if there is an edge
wherever there is a counted record, and no band that misses the target is made up for by
the bands beside it. -/
theorem recommends_earned_iff (number : Json → ℚ) (records : List DecisionRecord)
    (questionId : Str) (bands : List ℚ) (target : ℚ) :
    RecommendsEarned number records questionId bands target ↔
      (bands = [] → countedRecords number questionId records = []) ∧
      NoneOutweighed (sortedEdges bands) (countedRecords number questionId records) target := by
  have empty_buckets : (sortedEdges bands).map (fun _ => ([] : List Scored)) =
      bucketsOf (sortedEdges bands) [] := by
    rw [bucketsOf]
    apply List.ext_getElem <;> simp [inBand]
  have edge_set (report : CalibrationReport) :
      {edge | edge ∈ bands ∧ Earned target report edge} =
        {edge | edge ∈ sortedEdges bands ∧ Earned target report edge} := by
    ext edge
    rw [Set.mem_ofPred_eq, Set.mem_ofPred_eq, mem_sorted_edges]
  rw [RecommendsEarned, calibrateRecords, empty_buckets]
  by_cases some_edge : bands = []
  · subst some_edge
    have tallies := tallied_no_edge number questionId { questionId := questionId } records
    constructor
    · intro given
      obtain ⟨report, returned, _⟩ := given
      refine ⟨fun _ => tallies.mp ?_, fun first band above inside => ?_⟩
      · cases folded : records.foldlM (tally number questionId []) ({ questionId := questionId }, [])
        with
        | ok later => exact ⟨later, rfl⟩
        | error raised =>
            rw [show sortedEdges [] = [] from rfl, show bucketsOf [] [] = [] from rfl, folded]
              at returned
            cases returned
      · exact absurd inside (Nat.not_lt_zero _)
    · intro given
      obtain ⟨later, passed⟩ := tallies.mpr (given.1 rfl)
      rw [show sortedEdges [] = [] from rfl, show bucketsOf [] [] = [] from rfl, passed]
      refine ⟨_, rfl, fun edge => iff_of_false (fun never => ?_) fun least => ?_⟩
      · cases never
      · exact absurd least.1.1 List.not_mem_nil
  · obtain ⟨later, passed⟩ := tallied number (mt (sorted_edges_eq_nil bands).mp some_edge)
      questionId { questionId := questionId } [] records
    rw [passed, List.nil_append]
    rw [and_iff_right (fun none => absurd none some_edge)]
    have decided := @report_earned_iff target (sortedEdges bands)
      (countedRecords number questionId records) (sorted_edges_increasing bands)
    constructor
    · intro given
      obtain ⟨report, returned, earned⟩ := given
      rw [edge_set] at earned
      cases returned
      exact (decided rfl rfl).mp earned
    · intro balanced
      refine ⟨_, rfl, ?_⟩
      rw [edge_set]
      exact (decided rfl rfl).mpr balanced

def routed (choice confidence label : Str) : DecisionRecord where
  at_ := "2026-01-01T00:00:00+00:00"
  state := "task"
  questions := []
  answers := [("model".toList,
    .object [("choice".toList, .string choice), ("confidence".toList, .number confidence)])]
  label := some label

/-- Three right answers of high confidence and a wrong one of middling confidence. -/
def mixedRecords : List DecisionRecord :=
  [routed "local" "0.6" "hosted", routed "hosted" "0.95" "hosted",
    routed "hosted" "0.95" "hosted", routed "hosted" "0.95" "hosted"]

def readConfidence : Json → ℚ
  | .number text => if text = "0.6".toList then 3 / 5 else 19 / 20
  | _ => 0

/-- The band from 0.5 on has no right answer, and the three right ones above it make up
for it. -/
theorem middling_band_recommended :
    ¬RecommendsEarned readConfidence mixedRecords "model" [1 / 2, 9 / 10] (3 / 4) := by
  have reported : calibrateRecords readConfidence mixedRecords "model" [1 / 2, 9 / 10] (3 / 4) =
      .ok { questionId := "model", total := 4, labeled := 4, correct := 3
            bands := [⟨"0.50-0.90", 1 / 2, 9 / 10, 1, 0⟩, ⟨"0.90-1.00", 9 / 10, 1, 3, 3⟩]
            recommendedThreshold := some (1 / 2) } := by
    decide +kernel
  intro recommends
  obtain ⟨report, returned, earned⟩ := recommends
  rw [reported] at returned
  cases returned
  have allowed := ((earned (1 / 2)).mp rfl).1.2.1 _ (List.mem_cons_self ..) le_rfl 0 (by decide +kernel)
  norm_num at allowed

end DearAgent.Decision.Calibration
