import Mathlib.Data.List.GetD
import DearAgent.Decision.Calibration
import DearAgent.Lib.Values

/-!
# The bands of the confidences that are recorded

`calibrate_records` of `decision/log.py` on confidences as they are: `float` may not take what is
recorded, and what it returns may be below every band, or no number.
-/

namespace DearAgent.Decision.Bands

open DearAgent.Lib.Text
open DearAgent.Lib.Values (Place placeOf ok_bind bind_returns_iff exists_of_mem map_m_ok_iff
  map_m_returns_iff)
open DearAgent.Stores (DecisionRecord)
open DearAgent.Decision.Calibration

set_option autoImplicit false

abbrev Rated := Float × Bool

/-- `confidence >= edge`. -/
def reaches (confidence : Float) (edge : ℚ) : Bool :=
  ((placeOf confidence).map (Place.le (.exactly edge))).getD false

/-- `confidence <= edge`. -/
def atMost (confidence : Float) (edge : ℚ) : Bool :=
  ((placeOf confidence).map fun place => place.le (.exactly edge)).getD false

/-- `_bucket_index`. -/
def lastReached (confidence : Float) (edges : List ℚ) : Nat :=
  edges.zipIdx.foldl (fun index edge => if reaches confidence edge.1 then edge.2 else index) 0

/-- `buckets[index].append(entry)`. -/
def addEntry (buckets : List (List Rated)) (index : Nat) (entry : Rated) :
    Except Exn (List (List Rated)) :=
  if index < buckets.length then .ok (buckets.modify index (· ++ [entry]))
  else .error (.otherException "IndexError" "list index out of range")

def rightCount (entries : List Rated) : Nat := entries.countP Prod.snd

section Records

variable (float : Json → Except Exn Float)

def countRecord (questionId : Str) (edges : List ℚ)
    (soFar : CalibrationReport × List (List Rated)) (record : DecisionRecord) :
    Except Exn (CalibrationReport × List (List Rated)) :=
  match asDict (record.answers.lookup questionId) with
  | none => .ok soFar
  | some answer =>
      let report := { soFar.1 with total := soFar.1.total + 1 }
      match record.label with
      | none => .ok (report, soFar.2)
      | some label =>
          match given answer "confidence" with
          | none => .ok (report, soFar.2)
          | some confidence => do
              let correct := saysLabel label (given answer "choice")
              let report := { report with
                labeled := report.labeled + 1
                correct := report.correct + correct.toNat }
              let confidence ← float confidence
              let buckets ← addEntry soFar.2 (lastReached confidence edges) (confidence, correct)
              return (report, buckets)

def bandsOfRated (edges : List ℚ) (buckets : List (List Rated)) : List ConfidenceBand :=
  edges.zipIdx.map fun edge =>
    let upper := edges.getD (edge.2 + 1) 1
    let entries := buckets.getD edge.2 []
    { label := twoPlaces edge.1 ++ ['-'] ++ twoPlaces upper
      lower := edge.1
      upper := upper
      count := entries.length
      correct := rightCount entries }

/-- `_recommend`. -/
def recommendRated (edges : List ℚ) (buckets : List (List Rated)) (target : ℚ) : Option ℚ := do
  let index ← (List.range edges.length).find? fun index =>
    let above := (buckets.drop index).flatten
    !above.isEmpty && decide (target ≤ (rightCount above : ℚ) / above.length)
  edges[index]?

def countRecords (records : List DecisionRecord) (questionId : Str) (edges : List ℚ) :
    Except Exn (CalibrationReport × List (List Rated)) :=
  records.foldlM (countRecord float questionId edges)
    ({ questionId := questionId }, edges.map fun _ => [])

def finish (edges : List ℚ) (target : ℚ) (counted : CalibrationReport × List (List Rated)) :
    CalibrationReport :=
  { counted.1 with
    bands := bandsOfRated edges counted.2
    recommendedThreshold := recommendRated edges counted.2 target }

/-- `calibrate_records`. -/
def calibrateFloats (records : List DecisionRecord) (questionId : Str) (bands : List ℚ)
    (target : ℚ) : Except Exn CalibrationReport := do
  let edges := sortedEdges bands
  let counted ← countRecords float records questionId edges
  return finish edges target counted

end Records

/-!
## What the bands are to count
-/

/-- The confidence a record is counted with, and whether its answer is right. -/
def countedAs (questionId : Str) (record : DecisionRecord) : Option (Json × Bool) := do
  let answer ← asDict (record.answers.lookup questionId)
  let label ← record.label
  let confidence ← given answer "confidence"
  some (confidence, saysLabel label (given answer "choice"))

def hasChoice (questionId : Str) (record : DecisionRecord) : Bool :=
  ((asDict (record.answers.lookup questionId)).bind fun answer => given answer "choice").isSome

section Claims

variable (float : Json → Except Exn Float) (records : List DecisionRecord) (questionId : Str)

/-- Every counted record is at or above the lowest edge. -/
def NoneBelow (edges : List ℚ) : Prop :=
  ∀ record ∈ records, ∀ counted ∈ countedAs questionId record, ∀ confidence,
    float counted.1 = .ok confidence → ∀ lowest ∈ edges.head?, reaches confidence lowest = true

/-- The numbers of a report, and the buckets it is made of. -/
structure CountsAsSaid (edges : List ℚ) (report : CalibrationReport)
    (buckets : List (List Rated)) : Prop where
  labeled : report.labeled = records.countP fun record =>
    (countedAs questionId record).isSome && hasChoice questionId record
  inside : ∀ index band, report.bands[index]? = some band → ∀ entry ∈ buckets.getD index [],
    reaches entry.1 band.lower = true ∧ atMost entry.1 band.upper = true
  counts : (report.bands.map ConfidenceBand.count).sum ≤ report.labeled
  corrects : (report.bands.map ConfidenceBand.correct).sum ≤ report.correct
  exact : NoneBelow float records questionId edges →
    (report.bands.map ConfidenceBand.count).sum = report.labeled ∧
      (report.bands.map ConfidenceBand.correct).sum = report.correct

/-- The calibration returns, and its bands count what they say. -/
def BandsCount (bands : List ℚ) (target : ℚ) : Prop :=
  ∃ counted, countRecords float records questionId (sortedEdges bands) = .ok counted ∧
    calibrateFloats float records questionId bands target =
      .ok (finish (sortedEdges bands) target counted) ∧
    CountsAsSaid float records questionId (sortedEdges bands)
      (finish (sortedEdges bands) target counted) counted.2

/-- Where a record is counted there is a band, and its answer is a choice with a confidence that is
a number, not below the bands, and not above one in the last of them. -/
structure Countable (bands : List ℚ) : Prop where
  banded : bands = [] → ∀ record ∈ records, countedAs questionId record = none
  counted : ∀ record ∈ records, ∀ counted ∈ countedAs questionId record,
    hasChoice questionId record = true ∧ ∃ confidence, float counted.1 = .ok confidence ∧
      (∀ lowest ∈ (sortedEdges bands).head?, reaches confidence lowest = true) ∧
      ∀ highest ∈ (sortedEdges bands).getLast?,
        reaches confidence highest = true → atMost confidence 1 = true

end Claims

section Indices

variable {p : ℚ → Bool}

def lastIndex (p : ℚ → Bool) (edges : List ℚ) : Nat :=
  edges.zipIdx.foldl (fun index edge => if p edge.1 then edge.2 else index) 0

theorem last_index_concat (edges : List ℚ) (edge : ℚ) :
    lastIndex p (edges ++ [edge]) = if p edge then edges.length else lastIndex p edges := by
  unfold lastIndex
  rw [List.zipIdx_append, List.foldl_append, Nat.zero_add]
  rfl

theorem last_index_lt {edges : List ℚ} (some_edge : edges ≠ []) :
    lastIndex p edges < edges.length := by
  induction edges using List.reverseRecOn with
  | nil => exact absurd rfl some_edge
  | append_singleton edges edge ih =>
      rw [last_index_concat, List.length_append]
      split_ifs
      · exact Nat.lt_succ_self _
      · cases edges with
        | nil => exact Nat.zero_lt_one
        | cons first rest => exact (ih (List.cons_ne_nil _ _)).trans (Nat.lt_succ_self _)

/-- Behind the last edge that is reached none is, and before the first none either. -/
theorem last_index_spec (edges : List ℚ) :
    (∃ edge, edges[lastIndex p edges]? = some edge ∧ p edge = true ∧
      ∀ later other, lastIndex p edges < later → edges[later]? = some other → p other = false) ∨
      lastIndex p edges = 0 ∧ ∀ edge ∈ edges, p edge = false := by
  induction edges using List.reverseRecOn with
  | nil => exact .inr ⟨rfl, by simp⟩
  | append_singleton edges edge ih =>
      rw [last_index_concat]
      split_ifs with reached
      · refine .inl ⟨edge, List.getElem?_concat_length, reached, fun later other above found => ?_⟩
        have bound := (List.getElem?_eq_some_iff.mp found).1
        rw [List.length_append] at bound
        exact absurd bound (Nat.not_lt.mpr above)
      · have open_edge : p edge = false := by simpa using reached
        rcases ih with ⟨last, found, own, behind⟩ | ⟨first, none⟩
        · have bound := (List.getElem?_eq_some_iff.mp found).1
          refine .inl ⟨last, by rw [List.getElem?_append_left bound, found], own, ?_⟩
          intro later other above present
          by_cases inner : later < edges.length
          · rw [List.getElem?_append_left inner] at present
            exact behind later other above present
          · rw [List.getElem?_append_right (Nat.not_lt.mp inner)] at present
            cases List.mem_singleton.mp (List.mem_of_getElem? present)
            exact open_edge
        · refine .inr ⟨first, fun other member => ?_⟩
          rcases List.mem_append.mp member with inner | last
          · exact none other inner
          · cases List.mem_singleton.mp last
            exact open_edge

end Indices

section Places

variable {confidence : Float} {low high : ℚ}

theorem reaches_lower (below : low ≤ high) (reached : reaches confidence high = true) :
    reaches confidence low = true := by
  unfold reaches at reached ⊢
  cases place : placeOf confidence with
  | none =>
      rw [place] at reached
      cases reached
  | some found =>
      rw [place] at reached
      cases found with
      | lowest => cases reached
      | exactly q => exact decide_eq_true (below.trans (of_decide_eq_true reached))
      | highest => rfl

theorem at_most_of_not_reached (number : reaches confidence low = true)
    (short : reaches confidence high = false) : atMost confidence high = true := by
  unfold reaches at number short
  unfold atMost
  cases place : placeOf confidence with
  | none =>
      rw [place] at number
      cases number
  | some found =>
      rw [place] at short
      cases found with
      | lowest => rfl
      | exactly q => exact decide_eq_true (le_of_lt (not_le.mp (of_decide_eq_false short)))
      | highest => cases short

/-- A confidence is in the band it is counted in exactly if it is not below the bands, and in the
last of them not above one. -/
theorem in_band_iff {edges : List ℚ} (increasing : edges.Pairwise (· < ·)) {lower : ℚ}
    (own : edges[lastReached confidence edges]? = some lower) :
    reaches confidence lower = true ∧
        atMost confidence (edges.getD (lastReached confidence edges + 1) 1) = true ↔
      (∀ lowest ∈ edges.head?, reaches confidence lowest = true) ∧
        ∀ highest ∈ edges.getLast?, reaches confidence highest = true →
          atMost confidence 1 = true := by
  have inside := (List.getElem?_eq_some_iff.mp own).1
  have spec := @last_index_spec (reaches confidence) edges
  change (∃ edge, edges[lastReached confidence edges]? = some edge ∧ _ ∧
    ∀ later other, lastReached confidence edges < later → _) ∨ _ at spec
  generalize lastReached confidence edges = index at own inside spec
  rw [List.head?_eq_getElem?, List.getLast?_eq_getElem?, List.getD_eq_getElem?_getD]
  constructor
  · rintro ⟨reached, most⟩
    refine ⟨fun lowest first => ?_, fun highest last top => ?_⟩
    · exact reaches_lower ((edge_le_iff increasing first own).mpr (Nat.zero_le index)) reached
    · by_cases more : index + 1 < edges.length
      · exfalso
        rcases spec with ⟨edge, _, _, behind⟩ | ⟨_, none⟩
        · have short := behind (edges.length - 1) highest (by omega) last
          rw [top] at short
          cases short
        · have short := none highest (List.mem_of_getElem? last)
          rw [top] at short
          cases short
      · rw [List.getElem?_eq_none (Nat.not_lt.mp more)] at most
        exact most
  · rintro ⟨bottom, top⟩
    have first : edges[0]? = some edges[0] := List.getElem?_eq_getElem (by omega)
    have lowest := bottom _ first
    rcases spec with ⟨edge, found, reached, behind⟩ | ⟨_, none⟩
    · cases own.symm.trans found
      refine ⟨reached, ?_⟩
      cases next : edges[index + 1]? with
      | some upper =>
          exact at_most_of_not_reached reached (behind (index + 1) upper (Nat.lt_succ_self index) next)
      | none =>
          have bound := List.getElem?_eq_none_iff.mp next
          have last : index = edges.length - 1 := by omega
          exact top lower (last ▸ own) reached
    · rw [none _ (List.getElem_mem _)] at lowest
      cases lowest

end Places

section Loop

variable {float : Json → Except Exn Float} {questionId : Str} {edges : List ℚ}
  {report : CalibrationReport} {buckets : List (List Rated)} {record : DecisionRecord}

theorem count_record_skipped (skipped : countedAs questionId record = none) :
    ∃ total, countRecord float questionId edges (report, buckets) record =
      .ok ({ report with total := total }, buckets) := by
  unfold countedAs at skipped
  unfold countRecord
  cases answer : asDict (record.answers.lookup questionId) with
  | none => exact ⟨report.total, rfl⟩
  | some fields =>
      rw [answer] at skipped
      cases label : record.label with
      | none => exact ⟨_, rfl⟩
      | some text =>
          rw [label] at skipped
          cases confidence : given fields "confidence" with
          | none => exact ⟨report.total + 1, by simp only [confidence]⟩
          | some value =>
              simp only [Option.bind_eq_bind, Option.bind_some, confidence] at skipped
              cases skipped

theorem count_record_counted {counted : Json × Bool}
    (counts : countedAs questionId record = some counted) :
    countRecord float questionId edges (report, buckets) record =
      float counted.1 >>= fun confidence =>
        (addEntry buckets (lastReached confidence edges) (confidence, counted.2)).map fun buckets =>
          ({ report with
            total := report.total + 1
            labeled := report.labeled + 1
            correct := report.correct + counted.2.toNat }, buckets) := by
  unfold countedAs at counts
  unfold countRecord
  cases answer : asDict (record.answers.lookup questionId) with
  | none =>
      rw [answer] at counts
      cases counts
  | some fields =>
      rw [answer] at counts
      cases label : record.label with
      | none =>
          rw [label] at counts
          cases counts
      | some text =>
          rw [label] at counts
          cases confidence : given fields "confidence" with
          | none =>
              simp only [Option.bind_eq_bind, Option.bind_some, confidence] at counts
              cases counts
          | some value =>
              simp only [Option.bind_eq_bind, Option.bind_some, confidence] at counts
              cases counts
              simp only [confidence]
              cases float value with
              | error error => rfl
              | ok x =>
                  cases addEntry buckets (lastReached x edges)
                    (x, saysLabel text (given fields "choice")) <;> rfl

/-- The confidences that the records are counted with, if `float` takes them. -/
def ratings (float : Json → Except Exn Float) (questionId : Str) (records : List DecisionRecord) :
    Except Exn (List Rated) :=
  (records.filterMap (countedAs questionId)).mapM fun counted =>
    (float counted.1).map fun confidence => (confidence, counted.2)

theorem ratings_skipped (skipped : countedAs questionId record = none)
    (rest : List DecisionRecord) :
    ratings float questionId (record :: rest) = ratings float questionId rest := by
  rw [ratings, List.filterMap_cons, skipped]
  rfl

theorem ratings_counted {counted : Json × Bool} (counts : countedAs questionId record = some counted)
    (rest : List DecisionRecord) : ratings float questionId (record :: rest) =
      float counted.1 >>= fun confidence =>
        (ratings float questionId rest).map ((confidence, counted.2) :: ·) := by
  rw [ratings, List.filterMap_cons, counts, List.mapM_cons]
  cases float counted.1 with
  | error error => rfl
  | ok confidence =>
      unfold ratings
      cases (rest.filterMap (countedAs questionId)).mapM fun counted =>
        (float counted.1).map fun confidence => (confidence, counted.2) <;> rfl

def ratedBuckets (edges : List ℚ) (rated : List Rated) : List (List Rated) :=
  (List.range edges.length).map fun index =>
    rated.filter fun entry => lastReached entry.1 edges = index

theorem right_count_cons (confidence : Float) (right : Bool) (rest : List Rated) :
    rightCount ((confidence, right) :: rest) = right.toNat + rightCount rest := by
  unfold rightCount
  rw [List.countP_cons, Nat.add_comm]
  cases right <;> rfl

theorem rated_buckets_length (edges : List ℚ) (rated : List Rated) :
    (ratedBuckets edges rated).length = edges.length := by
  rw [ratedBuckets, List.length_map, List.length_range]

theorem add_entry_rated (some_edge : edges ≠ []) (rated : List Rated) (entry : Rated) :
    addEntry (ratedBuckets edges rated) (lastReached entry.1 edges) entry =
      .ok (ratedBuckets edges (rated ++ [entry])) := by
  have inside : lastReached entry.1 edges < edges.length := last_index_lt some_edge
  rw [addEntry, rated_buckets_length, if_pos inside]
  congr 1
  apply List.ext_getElem?
  intro index
  rw [List.getElem?_modify, ratedBuckets, ratedBuckets, List.getElem?_map, List.getElem?_map]
  by_cases below : index < edges.length
  · rw [List.getElem?_range below]
    simp only [Option.map_some, List.filter_append]
    by_cases here : lastReached entry.1 edges = index
    · simp [here]
    · simp [here]
  · rw [List.getElem?_eq_none (by simpa using below)]
    simp

/-- The loop counts every record that has a confidence `float` takes, and sorts it in. -/
theorem counts_records (some_edge : edges ≠ []) (records : List DecisionRecord)
    (report : CalibrationReport) (before : List Rated) :
    (∀ rated, ratings float questionId records = .ok rated →
      ∃ total, records.foldlM (countRecord float questionId edges)
          (report, ratedBuckets edges before) =
        .ok ({ report with
          total := total
          labeled := report.labeled + rated.length
          correct := report.correct + rightCount rated }, ratedBuckets edges (before ++ rated))) ∧
      ∀ error, ratings float questionId records = .error error →
        records.foldlM (countRecord float questionId edges) (report, ratedBuckets edges before) =
          .error error := by
  induction records generalizing report before with
  | nil =>
      constructor
      · intro rated taken
        have none : rated = [] := (Except.ok.inj taken).symm
        refine ⟨report.total, ?_⟩
        rw [none, List.append_nil]
        rfl
      · intro error taken
        cases taken
  | cons record rest ih =>
      rw [List.foldlM_cons]
      cases counted : countedAs questionId record with
      | none =>
          obtain ⟨total, step⟩ := @count_record_skipped float questionId edges report
            (ratedBuckets edges before) record counted
          rw [ratings_skipped counted, step]
          exact ih { report with total := total } before
      | some own =>
          rw [ratings_counted counted, count_record_counted counted]
          cases float own.1 with
          | error raised =>
              constructor
              · intro rated taken
                cases taken
              · intro error taken
                cases taken
                rfl
          | ok confidence =>
              have added := add_entry_rated some_edge before (confidence, own.2)
              simp only [ok_bind, added]
              have later := ih { report with
                total := report.total + 1
                labeled := report.labeled + 1
                correct := report.correct + own.2.toNat } (before ++ [(confidence, own.2)])
              cases rated : ratings float questionId rest with
              | error raised =>
                  constructor
                  · intro rated taken
                    cases taken
                  · intro error taken
                    cases taken
                    exact later.2 raised rated
              | ok others =>
                  constructor
                  · intro all taken
                    cases taken
                    obtain ⟨total, counts⟩ := later.1 others rated
                    refine ⟨total, counts.trans ?_⟩
                    rw [right_count_cons, List.length_cons, Nat.add_assoc, Nat.add_assoc,
                      Nat.add_comm 1 others.length, List.append_assoc]
                    rfl
                  · intro error taken
                    cases taken

theorem counts_no_edge (records : List DecisionRecord) (report : CalibrationReport) :
    ((∃ counted, records.foldlM (countRecord float questionId []) (report, []) = .ok counted) →
      ∀ record ∈ records, countedAs questionId record = none) ∧
      ((∀ record ∈ records, countedAs questionId record = none) →
        ∃ total, records.foldlM (countRecord float questionId []) (report, []) =
          .ok ({ report with total := total }, [])) := by
  induction records generalizing report with
  | nil => exact ⟨fun _ => by simp, fun _ => ⟨report.total, rfl⟩⟩
  | cons record rest ih =>
      rw [List.foldlM_cons]
      cases counted : countedAs questionId record with
      | none =>
          obtain ⟨total, step⟩ := @count_record_skipped float questionId [] report [] record counted
          rw [step]
          have later := ih { report with total := total }
          constructor
          · intro passes
            exact List.forall_mem_cons.mpr ⟨counted, later.1 passes⟩
          · intro skipped
            exact later.2 (List.forall_mem_cons.mp skipped).2
      | some own =>
          rw [count_record_counted counted]
          constructor
          · rintro ⟨passed, never⟩
            cases converted : float own.1 with
            | error error =>
                rw [converted] at never
                cases never
            | ok confidence =>
                rw [converted] at never
                cases never
          · intro skipped
            have own_skipped := skipped record List.mem_cons_self
            rw [counted] at own_skipped
            cases own_skipped

theorem converted_iff {counted : Json × Bool} {entry : Rated} :
    ((float counted.1).map fun confidence => (confidence, counted.2)) = .ok entry ↔
      float counted.1 = .ok entry.1 ∧ counted.2 = entry.2 := by
  cases float counted.1 with
  | error error => simp [Except.map]
  | ok confidence => simp [Except.map, Prod.ext_iff]

theorem rated_of_record {records : List DecisionRecord} {rated : List Rated}
    (taken : ratings float questionId records = .ok rated) (member : record ∈ records)
    {counted : Json × Bool} (counts : countedAs questionId record = some counted) :
    ∃ entry ∈ rated, float counted.1 = .ok entry.1 := by
  have among : counted ∈ records.filterMap (countedAs questionId) :=
    List.mem_filterMap.mpr ⟨record, member, counts⟩
  obtain ⟨entry, inside, own⟩ := exists_of_mem (map_m_ok_iff.mp taken) counted among
  exact ⟨entry, inside, (converted_iff.mp own).1⟩

theorem record_of_rated {records : List DecisionRecord} {rated : List Rated}
    (taken : ratings float questionId records = .ok rated) {entry : Rated} (member : entry ∈ rated) :
    ∃ record ∈ records, ∃ counted, countedAs questionId record = some counted ∧
      float counted.1 = .ok entry.1 := by
  obtain ⟨counted, among, own⟩ := exists_of_mem (map_m_ok_iff.mp taken).flip entry member
  obtain ⟨record, inside, counts⟩ := List.mem_filterMap.mp among
  exact ⟨record, inside, counted, counts, (converted_iff.mp own).1⟩

theorem rated_length {records : List DecisionRecord} {rated : List Rated}
    (taken : ratings float questionId records = .ok rated) :
    rated.length = records.countP fun record => (countedAs questionId record).isSome := by
  rw [← (map_m_ok_iff.mp taken).length_eq, List.length_filterMap_eq_countP]

theorem ratings_returns {records : List DecisionRecord}
    (converts : ∀ record ∈ records, ∀ counted ∈ countedAs questionId record,
      ∃ confidence, float counted.1 = .ok confidence) :
    ∃ rated, ratings float questionId records = .ok rated := by
  refine map_m_returns_iff.mpr fun counted among => ?_
  obtain ⟨record, inside, counts⟩ := List.mem_filterMap.mp among
  obtain ⟨confidence, own⟩ := converts record inside counted counts
  exact ⟨(confidence, counted.2), converted_iff.mpr ⟨own, rfl⟩⟩

theorem sum_at (value : Nat) (index bound : Nat) :
    ((List.range bound).map fun other => if index = other then value else 0).sum =
      if index < bound then value else 0 := by
  induction bound with
  | zero => rfl
  | succ bound ih =>
      rw [List.range_succ, List.map_append, List.sum_append, ih]
      simp only [List.map_cons, List.map_nil, List.sum_singleton]
      split_ifs <;> omega

theorem sum_over_buckets (some_edge : edges ≠ []) {measure : List Rated → Nat}
    {weight : Rated → Nat} (nil : measure [] = 0)
    (cons : ∀ entry rest, measure (entry :: rest) = weight entry + measure rest)
    (rated : List Rated) : ((ratedBuckets edges rated).map measure).sum = measure rated := by
  rw [ratedBuckets, List.map_map]
  induction rated with
  | nil => simp [Function.comp_def, nil]
  | cons entry rest ih =>
      have each : ∀ index, measure ((entry :: rest).filter fun entry =>
          lastReached entry.1 edges = index) = (if lastReached entry.1 edges = index then
            weight entry else 0) + measure (rest.filter fun entry =>
              lastReached entry.1 edges = index) := by
        intro index
        by_cases here : lastReached entry.1 edges = index
        · rw [List.filter_cons_of_pos (by simp [here]), cons, if_pos here]
        · rw [List.filter_cons_of_neg (by simp [here]), if_neg here, Nat.zero_add]
      have inside : lastReached entry.1 edges < edges.length := last_index_lt some_edge
      rw [cons, ← ih]
      simp only [Function.comp_def, each, List.sum_map_add, sum_at, if_pos inside]

end Loop

section Report

variable {edges : List ℚ} {rated : List Rated}

theorem getD_rated_buckets {index : Nat} (inside : index < edges.length) :
    (ratedBuckets edges rated).getD index [] =
      rated.filter fun entry => lastReached entry.1 edges = index := by
  rw [List.getD_eq_getElem?_getD, ratedBuckets, List.getElem?_map, List.getElem?_range inside]
  rfl

theorem band_at {buckets : List (List Rated)} {index : Nat} {band : ConfidenceBand} :
    (bandsOfRated edges buckets)[index]? = some band ↔
      ∃ lower, edges[index]? = some lower ∧ band =
        { label := twoPlaces lower ++ ['-'] ++ twoPlaces (edges.getD (index + 1) 1)
          lower := lower
          upper := edges.getD (index + 1) 1
          count := (buckets.getD index []).length
          correct := rightCount (buckets.getD index []) } := by
  rw [bandsOfRated, List.getElem?_map, List.getElem?_zipIdx, Nat.zero_add, Option.map_map]
  cases edges[index]? with
  | none => simp
  | some lower => simp [eq_comm]

theorem band_values {value : ConfidenceBand → Nat} {measure : List Rated → Nat}
    {buckets : List (List Rated)} (same_size : buckets.length = edges.length)
    (own : ∀ label lower upper entries,
      value ⟨label, lower, upper, entries.length, rightCount entries⟩ = measure entries) :
    (bandsOfRated edges buckets).map value = buckets.map measure := by
  apply List.ext_getElem?
  intro index
  rw [List.getElem?_map, List.getElem?_map]
  by_cases inside : index < edges.length
  · have band := (@band_at edges buckets index _).mpr ⟨edges[index], List.getElem?_eq_getElem inside, rfl⟩
    rw [band, List.getElem?_eq_getElem (same_size ▸ inside)]
    simp only [Option.map_some, own, List.getD_eq_getElem?_getD]
    rw [List.getElem?_eq_getElem (same_size ▸ inside)]
    rfl
  · have size : (bandsOfRated edges buckets).length = edges.length := by
      rw [bandsOfRated, List.length_map, List.length_zipIdx]
    rw [List.getElem?_eq_none (by omega), List.getElem?_eq_none (by omega)]
    rfl

theorem band_sums (some_edge : edges ≠ []) :
    ((bandsOfRated edges (ratedBuckets edges rated)).map ConfidenceBand.count).sum = rated.length ∧
      ((bandsOfRated edges (ratedBuckets edges rated)).map ConfidenceBand.correct).sum =
        rightCount rated := by
  have size := rated_buckets_length edges rated
  constructor
  · rw [band_values size fun _ _ _ entries => rfl]
    exact sum_over_buckets some_edge rfl (fun entry rest => Nat.add_comm _ _) rated
  · rw [band_values size fun _ _ _ entries => rfl]
    exact sum_over_buckets some_edge rfl (fun entry rest =>
      right_count_cons entry.1 entry.2 rest) rated

/-- Every entry is in the interval of its band exactly if every entry is in the bands. -/
theorem bands_inside_iff (increasing : edges.Pairwise (· < ·)) (some_edge : edges ≠ []) :
    (∀ index band, (bandsOfRated edges (ratedBuckets edges rated))[index]? = some band →
      ∀ entry ∈ (ratedBuckets edges rated).getD index [],
        reaches entry.1 band.lower = true ∧ atMost entry.1 band.upper = true) ↔
      ∀ entry ∈ rated, (∀ lowest ∈ edges.head?, reaches entry.1 lowest = true) ∧
        ∀ highest ∈ edges.getLast?, reaches entry.1 highest = true →
          atMost entry.1 1 = true := by
  constructor
  · intro inside entry member
    have bound : lastReached entry.1 edges < edges.length := last_index_lt some_edge
    have own := List.getElem?_eq_getElem bound
    refine (in_band_iff increasing own).mp ?_
    refine inside _ _ (band_at.mpr ⟨_, own, rfl⟩) entry ?_
    rw [getD_rated_buckets bound]
    exact List.mem_filter.mpr ⟨member, by simp⟩
  · intro each index band found entry member
    obtain ⟨lower, own, rfl⟩ := band_at.mp found
    have bound := (List.getElem?_eq_some_iff.mp own).1
    rw [getD_rated_buckets bound, List.mem_filter, decide_eq_true_eq] at member
    rw [← member.2] at own ⊢
    exact (in_band_iff increasing own).mpr (each entry member.1)

end Report

section Settling

variable {float : Json → Except Exn Float} {records : List DecisionRecord} {questionId : Str}
  {bands : List ℚ} {target : ℚ}

theorem countP_same_iff {α : Type} {p q : α → Bool} (items : List α) :
    items.countP p = items.countP (fun item => p item && q item) ↔
      ∀ item ∈ items, p item = true → q item = true := by
  induction items with
  | nil => simp
  | cons item rest ih =>
      have fewer : rest.countP (fun item => p item && q item) ≤ rest.countP p :=
        List.countP_mono_left fun item _ both => (Bool.and_eq_true_iff.mp both).1
      rw [List.countP_cons, List.countP_cons, List.forall_mem_cons, ← ih]
      cases first : p item with
      | false => simp
      | true =>
          cases second : q item with
          | false =>
              simp only [Bool.and_false, Bool.false_eq_true, if_false, if_true]
              constructor
              · intro same
                omega
              · rintro ⟨never, _⟩
                exact absurd (never trivial) (by simp)
          | true => simp

theorem calibrate_of_counts {counted : CalibrationReport × List (List Rated)}
    (counts : countRecords float records questionId (sortedEdges bands) = .ok counted) :
    calibrateFloats float records questionId bands target =
      .ok (finish (sortedEdges bands) target counted) := by
  unfold calibrateFloats
  simp only [counts]
  rfl

theorem bands_count_unbanded : BandsCount float records questionId [] target ↔
    ∀ record ∈ records, countedAs questionId record = none := by
  have loop := @counts_no_edge float questionId records { questionId := questionId }
  constructor
  · rintro ⟨counted, counts, _, _⟩
    exact loop.1 ⟨counted, counts⟩
  · intro skipped
    obtain ⟨total, counts⟩ := loop.2 skipped
    refine ⟨_, counts, calibrate_of_counts counts, ?_⟩
    have none : records.countP (fun record =>
        (countedAs questionId record).isSome && hasChoice questionId record) = 0 := by
      rw [List.countP_eq_zero]
      intro record member
      simp [skipped record member]
    constructor
    · exact none.symm
    · intro index band found
      cases found
    · exact Nat.zero_le _
    · exact Nat.zero_le _
    · exact fun _ => ⟨rfl, rfl⟩

theorem rated_buckets_nil (edges : List ℚ) : edges.map (fun _ => []) = ratedBuckets edges [] := by
  rw [ratedBuckets]
  apply List.ext_getElem <;> simp

theorem counts_of_ratings (some_edge : bands ≠ []) {rated : List Rated}
    (taken : ratings float questionId records = .ok rated) :
    ∃ total, countRecords float records questionId (sortedEdges bands) =
      .ok ({ questionId := questionId, total := total, labeled := rated.length,
             correct := rightCount rated }, ratedBuckets (sortedEdges bands) rated) := by
  obtain ⟨total, counts⟩ := (counts_records (mt (sorted_edges_eq_nil bands).mp some_edge) records
    { questionId := questionId } []).1 rated taken
  refine ⟨total, ?_⟩
  rw [countRecords, rated_buckets_nil, counts, Nat.zero_add, Nat.zero_add, List.nil_append]

theorem ratings_of_counts (some_edge : bands ≠ [])
    {counted : CalibrationReport × List (List Rated)}
    (counts : countRecords float records questionId (sortedEdges bands) = .ok counted) :
    ∃ rated, ratings float questionId records = .ok rated := by
  cases taken : ratings float questionId records with
  | ok rated => exact ⟨rated, rfl⟩
  | error error =>
      have failed := (counts_records (mt (sorted_edges_eq_nil bands).mp some_edge) records
        { questionId := questionId } []).2 error taken
      rw [countRecords, rated_buckets_nil, failed] at counts
      cases counts

theorem counts_as_said_iff (some_edge : bands ≠ []) {rated : List Rated}
    (taken : ratings float questionId records = .ok rated) (total : Nat) :
    CountsAsSaid float records questionId (sortedEdges bands)
        (finish (sortedEdges bands) target
          ({ questionId := questionId, total := total, labeled := rated.length,
             correct := rightCount rated }, ratedBuckets (sortedEdges bands) rated))
        (ratedBuckets (sortedEdges bands) rated) ↔
      (∀ record ∈ records, (countedAs questionId record).isSome = true →
        hasChoice questionId record = true) ∧
      ∀ entry ∈ rated, (∀ lowest ∈ (sortedEdges bands).head?, reaches entry.1 lowest = true) ∧
        ∀ highest ∈ (sortedEdges bands).getLast?, reaches entry.1 highest = true →
          atMost entry.1 1 = true := by
  have edges := mt (sorted_edges_eq_nil bands).mp some_edge
  have sums := @band_sums (sortedEdges bands) rated edges
  rw [← countP_same_iff, ← bands_inside_iff (sorted_edges_increasing bands) edges,
    ← rated_length taken]
  constructor
  · intro said
    exact ⟨said.labeled, said.inside⟩
  · rintro ⟨labeled, inside⟩
    exact ⟨labeled, inside, sums.1.le, sums.2.le, fun _ => sums⟩

/-- The bands of a calibration count what they say exactly if every counted record can be counted. -/
theorem bands_count_iff (float : Json → Except Exn Float) (records : List DecisionRecord)
    (questionId : Str) (bands : List ℚ) (target : ℚ) :
    BandsCount float records questionId bands target ↔ Countable float records questionId bands := by
  by_cases some_edge : bands = []
  · subst some_edge
    rw [bands_count_unbanded]
    constructor
    · intro skipped
      refine ⟨fun _ => skipped, fun record member counted counts => ?_⟩
      rw [skipped record member] at counts
      cases counts
    · exact fun countable => countable.banded rfl
  · constructor
    · rintro ⟨counted, counts, _, said⟩
      obtain ⟨rated, taken⟩ := ratings_of_counts some_edge counts
      obtain ⟨total, again⟩ := counts_of_ratings some_edge taken
      cases again.symm.trans counts
      obtain ⟨chosen, inside⟩ := (counts_as_said_iff some_edge taken total).mp said
      refine ⟨fun none => absurd none some_edge, fun record member counted counts => ?_⟩
      obtain ⟨entry, among, converted⟩ := rated_of_record taken member counts
      exact ⟨chosen record member (by simp [Option.mem_def.mp counts]), entry.1, converted,
        inside entry among⟩
    · intro countable
      obtain ⟨rated, taken⟩ := ratings_returns fun record member counted counts =>
        (countable.counted record member counted counts).2.imp fun _ own => own.1
      obtain ⟨total, counts⟩ := counts_of_ratings some_edge taken
      refine ⟨_, counts, calibrate_of_counts counts, (counts_as_said_iff some_edge taken total).mpr
        ⟨fun record member present => ?_, fun entry among => ?_⟩⟩
      · obtain ⟨counted, counts⟩ := Option.isSome_iff_exists.mp present
        exact (countable.counted record member counted counts).1
      · obtain ⟨record, member, counted, counts, converted⟩ := record_of_rated taken among
        obtain ⟨confidence, again, inside⟩ := (countable.counted record member counted counts).2
        cases converted.symm.trans again
        exact inside

end Settling

/-!
## Where every confidence is a number

Calibration takes a confidence for the rational it stands for. Where `float` makes of every
confidence that is counted the float at the place of that rational, the two models agree.
-/

section Exact

variable {number : Json → ℚ} {float : Json → Except Exn Float} {questionId : Str} {edges : List ℚ}

def verdictsOf {α : Type} (buckets : List (List (α × Bool))) : List (List Bool) :=
  buckets.map fun bucket => bucket.map Prod.snd

def told {α : Type} (counted : CalibrationReport × List (List (α × Bool))) :
    CalibrationReport × List (List Bool) := (counted.1, verdictsOf counted.2)

theorem told_alike {rated : List (List Rated)} {scored : List (List Scored)}
    (alike : verdictsOf rated = verdictsOf scored) (report : CalibrationReport) :
    told (report, rated) = told (report, scored) := Prod.ext rfl alike

/-- Loops that come to the same end in one way: with one error, or with what is told the same. -/
theorem told_cases {first : Except Exn (CalibrationReport × List (List Rated))}
    {second : Except Exn (CalibrationReport × List (List Scored))}
    (alike : first.map told = second.map told) :
    (∃ error, first = .error error ∧ second = .error error) ∨
      ∃ report rated scored, first = .ok (report, rated) ∧ second = .ok (report, scored) ∧
        verdictsOf rated = verdictsOf scored := by
  cases first with
  | error error =>
      cases second with
      | error other =>
          cases alike
          exact .inl ⟨error, rfl, rfl⟩
      | ok counted => cases alike
  | ok counted =>
      cases second with
      | error other => cases alike
      | ok tallied =>
          obtain ⟨same, verdicts⟩ := Prod.mk.inj (Except.ok.inj alike)
          exact .inr ⟨counted.1, counted.2, tallied.2, rfl, by rw [same], verdicts⟩

theorem told_bind {α : Type} (added : Except Exn (List (List (α × Bool)))) (report : CalibrationReport) :
    (do let buckets ← added; return (report, buckets) : Except Exn _).map told =
      (added.map verdictsOf).map (Prod.mk report) := by
  cases added <;> rfl

theorem verdicts_modify {α : Type} (buckets : List (List (α × Bool))) (index : Nat)
    (entry : α × Bool) : verdictsOf (buckets.modify index (· ++ [entry])) =
      (verdictsOf buckets).modify index (· ++ [entry.2]) := by
  unfold verdictsOf
  apply List.ext_getElem?
  intro other
  rw [List.getElem?_map, List.getElem?_modify, List.getElem?_modify, List.getElem?_map]
  cases buckets[other]? with
  | none => rfl
  | some bucket =>
      by_cases own : index = other
      · simp [own]
      · simp [own]

theorem verdicts_counted {α : Type} (entries : List (α × Bool)) :
    entries.length = (entries.map Prod.snd).length ∧
      entries.countP Prod.snd = (entries.map Prod.snd).countP id ∧
      entries.isEmpty = (entries.map Prod.snd).isEmpty := by
  refine ⟨(List.length_map _).symm, ?_, List.isEmpty_map.symm⟩
  rw [List.countP_map]
  rfl

theorem last_reached_eq {confidence : Float} {q : ℚ} (place : placeOf confidence = some (.exactly q))
    (edges : List ℚ) : lastReached confidence edges = bucketIndex q edges := by
  have same : ∀ edge, reaches confidence edge = decide (edge ≤ q) := by
    intro edge
    unfold reaches
    rw [place]
    rfl
  unfold lastReached bucketIndex
  simp only [same, decide_eq_true_eq]

theorem add_entry_told {rated : List (List Rated)} {scored : List (List Scored)}
    (alike : verdictsOf rated = verdictsOf scored) (index : Nat) (confidence : Float) (q : ℚ)
    (correct : Bool) :
    (addEntry rated index (confidence, correct)).map verdictsOf =
      (addTo scored index (q, correct)).map verdictsOf := by
  have size : rated.length = scored.length := by
    have lengths := congrArg List.length alike
    rwa [verdictsOf, verdictsOf, List.length_map, List.length_map] at lengths
  unfold addEntry addTo
  rw [size]
  split_ifs
  · exact congrArg Except.ok (by rw [verdicts_modify, verdicts_modify, alike])
  · rfl

theorem count_record_told (report : CalibrationReport) {rated : List (List Rated)}
    {scored : List (List Scored)} (alike : verdictsOf rated = verdictsOf scored)
    {record : DecisionRecord}
    (reads : ∀ counted ∈ countedAs questionId record, ∃ confidence,
      float counted.1 = .ok confidence ∧ placeOf confidence = some (.exactly (number counted.1))) :
    (countRecord float questionId edges (report, rated) record).map told =
      (tally number questionId edges (report, scored) record).map told := by
  unfold countRecord tally
  unfold countedAs at reads
  cases asked : asDict (record.answers.lookup questionId) with
  | none => exact congrArg Except.ok (told_alike alike report)
  | some answer =>
      rw [asked] at reads
      cases labeled : record.label with
      | none => exact congrArg Except.ok (told_alike alike _)
      | some label =>
          rw [labeled] at reads
          simp only [Option.bind_eq_bind, Option.bind_some] at reads
          cases confident : given answer "confidence" with
          | none =>
              simp only [confident]
              exact congrArg Except.ok (told_alike alike _)
          | some value =>
              rw [confident] at reads
              obtain ⟨confidence, read, place⟩ := reads _ rfl
              have added := add_entry_told alike (bucketIndex (number value) edges) confidence
                (number value) (saysLabel label (given answer "choice"))
              simp only [confident, read, ok_bind, last_reached_eq place]
              rw [told_bind, told_bind, added]

theorem count_records_told (report : CalibrationReport) {rated : List (List Rated)}
    {scored : List (List Scored)} (alike : verdictsOf rated = verdictsOf scored)
    {records : List DecisionRecord}
    (reads : ∀ record ∈ records, ∀ counted ∈ countedAs questionId record, ∃ confidence,
      float counted.1 = .ok confidence ∧ placeOf confidence = some (.exactly (number counted.1))) :
    (records.foldlM (countRecord float questionId edges) (report, rated)).map told =
      (records.foldlM (tally number questionId edges) (report, scored)).map told := by
  induction records generalizing report rated scored with
  | nil => exact congrArg (fun verdicts => Except.ok (report, verdicts)) alike
  | cons record rest ih =>
      have first := @count_record_told _ _ _ edges report _ _ alike record
        (reads record List.mem_cons_self)
      rw [List.foldlM_cons, List.foldlM_cons]
      cases told_cases first with
      | inl failed =>
          obtain ⟨error, counted, tallied⟩ := failed
          rw [counted, tallied]
          rfl
      | inr went =>
          obtain ⟨later, _, _, counted, tallied, verdicts⟩ := went
          rw [counted, tallied]
          exact ih later verdicts fun record member => reads record (List.mem_cons_of_mem _ member)

theorem bands_of_told {rated : List (List Rated)} {scored : List (List Scored)}
    (alike : verdictsOf rated = verdictsOf scored) (edges : List ℚ) :
    bandsOfRated edges rated = bandsOf edges scored := by
  have entries : ∀ index, (rated.getD index []).map Prod.snd = (scored.getD index []).map Prod.snd := by
    intro index
    have picked := congrArg (fun verdicts => verdicts.getD index []) alike
    simpa only [verdictsOf, ← List.getD_map, List.map_nil] using picked
  unfold bandsOfRated bandsOf rightCount rightOnes
  simp only [(verdicts_counted (rated.getD _ [])).1, (verdicts_counted (rated.getD _ [])).2.1,
    (verdicts_counted (scored.getD _ [])).1, (verdicts_counted (scored.getD _ [])).2.1, entries]

theorem recommend_told {rated : List (List Rated)} {scored : List (List Scored)}
    (alike : verdictsOf rated = verdictsOf scored) (edges : List ℚ) (target : ℚ) :
    recommendRated edges rated target = recommend edges scored target := by
  have above : ∀ index, (rated.drop index).flatten.map Prod.snd =
      (scored.drop index).flatten.map Prod.snd := by
    intro index
    have dropped := congrArg (fun verdicts => (verdicts.drop index).flatten) alike
    simpa only [verdictsOf, ← List.map_drop, ← List.map_flatten] using dropped
  have tests : ∀ index, (!(rated.drop index).flatten.isEmpty &&
      decide (target ≤ (rightCount (rated.drop index).flatten : ℚ) /
        (rated.drop index).flatten.length)) = meetsAbove scored target index := by
    intro index
    unfold meetsAbove rightCount rightOnes
    obtain ⟨size, right, empty⟩ := verdicts_counted (rated.drop index).flatten
    obtain ⟨size', right', empty'⟩ := verdicts_counted (scored.drop index).flatten
    rw [size, right, empty, above]
    simp only [size', right', empty']
  unfold recommendRated recommend
  simp only [tests]

/-- On confidences that are read as the numbers they stand for the calibrations are the same. -/
theorem calibrate_floats_eq (records : List DecisionRecord) (bands : List ℚ) (target : ℚ)
    (reads : ∀ record ∈ records, ∀ counted ∈ countedAs questionId record, ∃ confidence,
      float counted.1 = .ok confidence ∧ placeOf confidence = some (.exactly (number counted.1))) :
    calibrateFloats float records questionId bands target =
      calibrateRecords number records questionId bands target := by
  have empty : verdictsOf ((sortedEdges bands).map fun _ => ([] : List Rated)) =
      verdictsOf ((sortedEdges bands).map fun _ => ([] : List Scored)) := by
    unfold verdictsOf
    rw [List.map_map, List.map_map]
    rfl
  have loops := @count_records_told _ _ _ (sortedEdges bands) { questionId := questionId } _ _ empty
    records reads
  unfold calibrateFloats calibrateRecords countRecords
  dsimp only
  cases told_cases loops with
  | inl failed =>
      obtain ⟨error, counted, tallied⟩ := failed
      rw [counted, tallied]
      rfl
  | inr went =>
      obtain ⟨report, rated, scored, counted, tallied, verdicts⟩ := went
      rw [counted, tallied, ok_bind, ok_bind]
      unfold finish
      rw [bands_of_told verdicts, recommend_told verdicts]

end Exact

def readFloat : Json → Except Exn Float
  | .number text =>
      if text = "0.4".toList then .ok 0.4
      else .error (.valueError "could not convert string to float")
  | _ => .error (.otherException "TypeError" "float() argument must be a string or a real number")

theorem low_confidence_banded :
    ¬BandsCount readFloat [routed "hosted" "0.4" "hosted"] "model" [1 / 2, 7 / 10, 9 / 10]
      (19 / 20) := by
  rintro ⟨counted, counts, _, said⟩
  have some_edge : [1 / 2, 7 / 10, (9 / 10 : ℚ)] ≠ [] := List.cons_ne_nil _ _
  have taken : ratings readFloat "model" [routed "hosted" "0.4" "hosted"] = .ok [(0.4, true)] := rfl
  obtain ⟨total, again⟩ := counts_of_ratings some_edge taken
  cases again.symm.trans counts
  have inside := ((counts_as_said_iff some_edge taken total).mp said).2 _ (List.mem_singleton_self _)
  have lowest := inside.1 (1 / 2) (by decide +kernel)
  exact absurd lowest (by decide +kernel)

end DearAgent.Decision.Bands
