import DearAgent.Dispatch.Jobs
import DearAgent.Executor.Branches
import DearAgent.Lib.Values

/-!
# Names of jobs

The name of a job is made of the id of its task, of which only letters, digits and dashes
are left, and of the start of a digest. It is a name that Kubernetes takes, and ids that
differ in the start of their digests have jobs of their own.
-/

namespace DearAgent

open DearAgent.Lib.Text DearAgent.Lib.CodePoints DearAgent.Lib.Values DearAgent.Lib.Effects
open DearAgent.Queue DearAgent.Kube

set_option autoImplicit false

/-- A label as DNS-1123 has it, one that starts with a letter. -/
structure DnsLabel (name : Str) : Prop where
  short : name.length ≤ 63
  plain : ∀ c ∈ name, isSlugChar c = true ∨ c = '-'
  begins : ∃ c rest, name = c :: rest ∧ 'a' ≤ c ∧ c ≤ 'z'
  ends : ∃ front c, name = front ++ [c] ∧ isSlugChar c = true

section Parts

theorem dash_runs_chars (inRun : Bool) (text : Str) :
    ∀ c ∈ dashRuns inRun text, isSlugChar c = true ∨ c = '-' := by
  induction text generalizing inRun with
  | nil => exact fun c never => absurd never List.not_mem_nil
  | cons d rest ih =>
      intro c member
      rw [dashRuns] at member
      split_ifs at member with slug run
      · cases member with
        | head => exact .inl slug
        | tail _ later => exact ih false c later
      · exact ih true c member
      · cases member with
        | head => exact .inr rfl
        | tail _ later => exact ih true c later

theorem mem_of_mem_strip_where {drop : Char → Bool} {text : Str} {c : Char}
    (member : c ∈ stripWhere drop text) : c ∈ text := by
  unfold stripWhere rstripWhere lstripWhere at member
  have inner := (List.dropWhile_sublist _).subset (List.mem_reverse.mp member)
  exact (List.dropWhile_sublist _).subset (List.mem_reverse.mp inner)

theorem slug_char_of_hex {c : Char} (digit : c ∈ "0123456789abcdef".toList) :
    isSlugChar c = true := by
  have every : ∀ c ∈ "0123456789abcdef".toList, isSlugChar c = true := every_char (by decide)
  exact every c digit

end Parts

section Names

def jobDigest [Sha256] (taskId : Str) : Str := (Sha256.hexdigest taskId).take 10

def jobSlug [Unicode] (taskId : Str) : Str :=
  orElse (some ((stripWhere (fun c => c = '-') (dashRuns false (Unicode.lower taskId))).take 36))
    "task"

variable [Unicode] [Sha256Hex]

omit [Unicode] in
theorem job_digest_length (taskId : Str) : (jobDigest taskId).length = 10 := by
  rw [jobDigest, List.length_take, Sha256Hex.hexdigest_length]
  rfl

omit [Unicode] in
theorem job_digest_chars (taskId : Str) : ∀ c ∈ jobDigest taskId, isSlugChar c = true := by
  intro c member
  exact slug_char_of_hex (Sha256Hex.hexdigest_hex taskId c (List.mem_of_mem_take member))

theorem job_name_eq (taskId : Str) :
    jobName taskId = "dear-agent-task-".toList ++ (jobSlug taskId ++ '-' :: jobDigest taskId) := by
  have length := job_digest_length taskId
  unfold jobDigest at length
  have budget : 63 - "dear-agent-task-".toList.length - 1 - 10 = 36 := by decide
  unfold jobName
  simp only [length, budget, List.append_assoc]
  rfl

omit [Sha256Hex] in
theorem job_slug_length (taskId : Str) : (jobSlug taskId).length ≤ 36 := by
  simp only [jobSlug, orElse]
  split_ifs
  · decide
  · exact List.length_take_le _ _

omit [Sha256Hex] in
theorem job_slug_chars (taskId : Str) :
    ∀ c ∈ jobSlug taskId, isSlugChar c = true ∨ c = '-' := by
  intro c member
  simp only [jobSlug, orElse] at member
  split_ifs at member
  · have letters : ∀ c ∈ "task".toList, isSlugChar c = true := every_char (by decide)
    exact .inl (letters c member)
  · exact dash_runs_chars false _ c (mem_of_mem_strip_where (List.mem_of_mem_take member))

theorem job_name_label (taskId : Str) : DnsLabel (jobName taskId) := by
  have slugged := job_slug_chars taskId
  have digits := job_digest_chars taskId
  have digest := job_digest_length taskId
  rw [job_name_eq]
  constructor
  · have slug := job_slug_length taskId
    have front : "dear-agent-task-".toList.length = 16 := by decide
    simp only [List.length_append, List.length_cons, front, digest]
    omega
  · have front : ∀ c ∈ "dear-agent-task-".toList, isSlugChar c = true ∨ c = '-' :=
      every_char (by decide)
    intro c member
    simp only [List.mem_append, List.mem_cons] at member
    rcases member with fixed | slug | dash | digit
    · exact front c fixed
    · exact slugged c slug
    · exact .inr dash
    · exact .inl (digits c digit)
  · exact ⟨'d', _, rfl, by decide, by decide⟩
  · have some_digit : jobDigest taskId ≠ [] := by
      intro empty
      rw [empty] at digest
      cases digest
    have last := digits _ (List.getLast_mem some_digit)
    refine ⟨"dear-agent-task-".toList ++ (jobSlug taskId ++ '-' :: (jobDigest taskId).dropLast),
      (jobDigest taskId).getLast some_digit, ?_, last⟩
    rw [List.append_assoc, List.append_assoc, List.cons_append, List.dropLast_concat_getLast]

/-- `job_name` of any `str`. -/
def jobNameOf (taskId : PyStr) : Except Raised Str :=
  match toText? taskId with
  -- `encode` refuses what is no text
  | none => .error unicodeEncodeError
  | some text => .ok (jobName text)

theorem job_name_of_cases (taskId : PyStr) :
    (taskId.any isSurrogate = true ∧ jobNameOf taskId = .error unicodeEncodeError) ∨
      ∃ name, jobNameOf taskId = .ok name ∧ DnsLabel name := by
  unfold jobNameOf
  cases encoded : toText? taskId with
  | none => exact .inl ⟨(to_text_eq_none_iff taskId).mp encoded, rfl⟩
  | some text => exact .inr ⟨jobName text, rfl, job_name_label text⟩

theorem job_name_digest {first second : Str} (same : jobName first = jobName second) :
    jobDigest first = jobDigest second := by
  rw [job_name_eq, job_name_eq] at same
  have lengths : ('-' :: jobDigest first).length = ('-' :: jobDigest second).length := by
    simp only [List.length_cons, job_digest_length]
  have tails := List.append_inj' (List.append_cancel_left same) lengths
  exact (List.cons.inj tails.2).2

/-- Every id has a job of a valid name; ids that differ in the first ten digits of their
digests have jobs of different names, and creating the one leaves the other alone. -/
theorem job_names_valid_and_distinct :
    (∀ taskId : Str, DnsLabel (jobName taskId)) ∧
      ∀ first second : Str, jobDigest first ≠ jobDigest second →
        jobName first ≠ jobName second ∧
          ∀ (client : KubernetesClient) (metadataName : Str → Str) (job : Str),
            metadataName job = jobName first → Spares client metadataName job (jobName second) := by
  apply And.intro job_name_label
  intro first second apart
  have different : jobName first ≠ jobName second := fun same => apart (job_name_digest same)
  apply And.intro different
  intro client metadataName job named
  apply create_job_spares
  rw [named]
  exact different.symm

end Names

theorem slugs_alike_jobs_apart :
    let _ := asciiTables
    let _ := hashlibDigests
    jobName "a_b" = "dear-agent-task-a-b-648fa9b31b".toList ∧
      jobName "a-b" = "dear-agent-task-a-b-d44362d67d".toList ∧ jobName "a_b" ≠ jobName "a-b" := by
  let _ := asciiTables
  let _ := hashlibDigests
  have apart : jobDigest "a_b" ≠ jobDigest "a-b" := by decide +kernel
  exact ⟨by decide +kernel, by decide +kernel, (job_names_valid_and_distinct.2 _ _ apart).1⟩

end DearAgent
