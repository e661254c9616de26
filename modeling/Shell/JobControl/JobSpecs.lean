import Shell.JobControl.TableInvariant
import Shell.Parsing.Numerals

/-!
# Job specifications

`resolve_job` reads a specification as a numeral, with an optional percent sign
in front, or takes the current job.  The number goes through `long` and is then
narrowed to `int`, and `strtol` sees the text up to its first NUL byte only; so
a job may be found that the numeral does not say.  The current job is the one
that `render_jobs` marks, although the two functions look for it separately.
-/

namespace Shell.JobSpecs

open Shell.Syntax
open Shell.TransitionSystem
open Shell.JobTable
open Shell.JobOperations
open Shell.TableInvariant
open Shell.Numerals

/-! ## Numerals as specifications -/

/-- The specification without the percent sign that it may start with. -/
def specText : ByteString → ByteString
  | 0x25 :: rest => rest
  | spec => spec

/-- The specifications of the current job. -/
def NamesCurrent (spec : ByteString) : Prop :=
  spec = [] ∨ spec = literal "%" ∨ spec = literal "%+"

instance (spec : ByteString) : Decidable (NamesCurrent spec) :=
  inferInstanceAs (Decidable (_ ∨ _ ∨ _))

theorem parseJobId_of_namesCurrent
    {spec : ByteString} (current : NamesCurrent spec) :
    parseJobId spec = none := by
  rcases current with rfl | rfl | rfl <;> decide

theorem specText_ne_nil
    {spec : ByteString} (other : ¬ NamesCurrent spec) :
    specText spec ≠ [] := by
  rw [specText.eq_def]
  split
  · rintro rfl
    exact other (Or.inr (Or.inl rfl))
  · exact fun isNil => other (Or.inl isNil)

theorem specText_subset (spec : ByteString) : specText spec ⊆ spec := by
  rw [specText.eq_def]
  split
  · exact List.subset_cons_self _ _
  · exact List.Subset.refl _

theorem parseJobId_eq (spec : ByteString) :
    parseJobId spec =
      if spec = [] ∨ spec = literal "%+" then none
      else if specText spec = [] then none
      else
        match strtol
            ((specText spec).takeWhile fun character => character ≠ 0) with
        | none => some (-1)
        | some (value, rest) =>
            if rest ≠ [] ∨ value ≤ 0 then some (-1)
            else some (toInt32 value) := by
  by_cases percent : ∃ rest, spec = 0x25 :: rest
  · rcases percent with ⟨rest, rfl⟩
    rfl
  · have other : ∀ rest, spec = 0x25 :: rest → False :=
      fun rest isSpec => percent ⟨rest, isSpec⟩
    have same : specText spec = spec := by
      rw [specText]
      exact other
    rw [same]
    exact parseJobId.eq_2 spec other

/-- What `strtol` sees of a specification. -/
def visible (spec : ByteString) : ByteString :=
  (specText spec).takeWhile fun character => character ≠ 0

theorem zero_mem_specText {spec : ByteString} (isThere : 0 ∈ spec) :
    0 ∈ specText spec := by
  rw [specText.eq_def]
  split
  · rcases List.mem_cons.mp isThere with percent | later
    · cases percent
    · exact later
  · exact isThere

theorem visible_of_noNul {spec : ByteString} (noNul : 0 ∉ spec) :
    visible spec = specText spec := by
  refine List.takeWhile_eq_self_iff.mpr fun character member => ?_
  refine decide_eq_true fun isNul => noNul ?_
  rw [← isNul]
  exact specText_subset spec member

/-- Any other specification is given to `strtol`. -/
theorem parseJobId_of_other
    {spec : ByteString} (other : ¬ NamesCurrent spec) :
    parseJobId spec =
      match strtol (visible spec) with
      | none => some (-1)
      | some (value, rest) =>
          if rest ≠ [] ∨ value ≤ 0 then some (-1)
          else some (toInt32 value) := by
  have notCurrent : ¬ (spec = [] ∨ spec = literal "%+") :=
    fun either => other (either.imp_right Or.inr)
  rw [parseJobId_eq, if_neg notCurrent, if_neg (specText_ne_nil other)]
  rfl

/-- The `int` that becomes of a positive number: `strtol` saturates at the
largest `long`, of which the low half is kept. -/
def asInt (number : Int) : Int :=
  Int.bmod (min number 0x7fffffffffffffff) 0x100000000

/-- What `parse_job_id` makes of a numeral. -/
theorem parseJobId_of_numeral
    {spec : ByteString} (other : ¬ NamesCurrent spec)
    {number : Int} (numeral : Numeral (visible spec) number) :
    parseJobId spec =
      if 0 < number then some (asInt number) else some (-1) := by
  rw [parseJobId_of_other other, strtol_full.mpr ⟨number, numeral, rfl⟩]
  by_cases positive : 0 < number
  · have saturated : clampLong number = min number 0x7fffffffffffffff := by
      rw [clampLong]
      omega
    have large : ¬ min number 0x7fffffffffffffff ≤ 0 := by
      omega
    simp only [ne_eq, not_true_eq_false, false_or, if_pos positive,
      saturated, if_neg large]
    rfl
  · have small : clampLong number ≤ 0 := by
      rw [clampLong]
      omega
    simp only [small, or_true, if_true, if_neg positive]

theorem parseJobId_of_no_numeral
    {spec : ByteString} (other : ¬ NamesCurrent spec)
    (noNumeral : ∀ number, ¬ Numeral (visible spec) number) :
    parseJobId spec = some (-1) := by
  rw [parseJobId_of_other other]
  split
  · rfl
  · rename_i value rest read
    apply if_pos
    by_contra full
    rw [not_or, not_ne_iff] at full
    rw [full.1] at read
    rcases strtol_full.mp read with ⟨number, numeral, -⟩
    exact noNumeral number numeral

/-- The job with the narrowed number of a positive numeral is found, and no
other. -/
theorem resolveJob_eq_some_iff
    {control : JobControl} (valid : TableValid control)
    {spec : ByteString} (other : ¬ NamesCurrent spec) {job : Job} :
    control.resolveJob spec = some job ↔
      job ∈ control.jobs ∧
        ∃ number,
          Numeral (visible spec) number ∧ 0 < number ∧
            0 ≤ asInt number ∧ job.id = asInt number := by
  by_cases isNumeral : ∃ number, Numeral (visible spec) number
  · rcases isNumeral with ⟨number, numeral⟩
    rw [JobControl.resolveJob, parseJobId_of_numeral other numeral]
    constructor
    · intro resolved
      by_cases positive : 0 < number
      · rw [if_pos positive] at resolved
        simp only [Option.ite_none_left_eq_some] at resolved
        rcases findJob_mem resolved.2 with ⟨isMember, sameId⟩
        exact ⟨isMember, number, numeral, positive,
          Int.not_lt.mp resolved.1, sameId⟩
      · rw [if_neg positive] at resolved
        cases resolved
    · rintro ⟨isMember, again, sameNumeral, positive, notNegative, sameId⟩
      cases numeral.unique sameNumeral
      rw [if_pos positive]
      simp only [if_neg (Int.not_lt.mpr notNegative)]
      rw [← sameId]
      exact valid.findJob isMember
  · have nothing : control.resolveJob spec = none := by
      rw [JobControl.resolveJob,
        parseJobId_of_no_numeral other (not_exists.mp isNumeral)]
      rfl
    rw [nothing]
    refine iff_of_false nofun ?_
    rintro ⟨-, number, numeral, -⟩
    exact isNumeral ⟨number, numeral⟩

theorem zero_not_mem_of_numeral
    {spec : ByteString} {number : Int}
    (numeral : Numeral (specText spec) number) : 0 ∉ spec := by
  intro isNul
  have inText := zero_mem_specText isNul
  generalize specText spec = text at numeral inText
  rcases numeral with ⟨sign, areBlanks, -, areDigits⟩
  rcases List.mem_append.mp inText with inBlanks | later
  · cases areBlanks 0 inBlanks
  · rcases List.mem_append.mp later with inSign | inDigits
    · cases sign with
      | absent => cases inSign
      | plus | minus => cases List.mem_singleton.mp inSign
    · cases areDigits 0 inDigits

theorem not_namesCurrent_of_numeral
    {spec : ByteString} {number : Int}
    (numeral : Numeral (specText spec) number) : ¬ NamesCurrent spec := by
  intro current
  have notRead : strtol (specText spec) = none := by
    rcases current with rfl | rfl | rfl <;> decide
  rw [strtol_full.mpr ⟨number, numeral, rfl⟩] at notRead
  cases notRead

/-! ## The current job -/

/-- The listing of the jobs that are not done, with a mark at some of them. -/
def renderMarked (marked : Job → Bool) (control : JobControl) : ByteString :=
  control.jobs.flatMap fun job =>
    if job.state = .done then
      []
    else
      literal "[" ++ decimal job.id ++ literal "]" ++
        (if marked job then literal "+ " else literal "  ") ++
        stateName job.state ++ literal "\t" ++ job.command ++ literal "\n"

theorem resolveJob_of_namesCurrent
    {spec : ByteString} (current : NamesCurrent spec)
    (control : JobControl) :
    control.resolveJob spec =
      control.jobs.reverse.find? fun job => job.state ≠ .done := by
  rw [JobControl.resolveJob, parseJobId_of_namesCurrent current]

/-- The listing marks the job that the specification resolves to. -/
theorem renderJobs_marks_current
    {control : JobControl} (valid : TableValid control)
    {spec : ByteString} (current : NamesCurrent spec) :
    renderJobs control =
      renderMarked (fun job => control.resolveJob spec = some job)
        control := by
  rw [renderJobs, renderMarked]
  apply List.flatMap_congr
  intro job member
  by_cases isDone : job.state = .done
  · rw [if_pos isDone, if_pos isDone]
  · rw [if_neg isDone, if_neg isDone, resolveJob_of_namesCurrent current]
    cases found : control.jobs.reverse.find? fun job => job.state ≠ .done with
    | none =>
        have allDone := List.find?_eq_none.mp found job
          (List.mem_reverse.mpr member)
        simp [isDone] at allDone
    | some last =>
        have isMember : last ∈ control.jobs :=
          List.mem_reverse.mp (List.mem_of_find?_eq_some found)
        have sameJob : job.id = last.id ↔ last = job := by
          constructor
          · intro sameId
            have foundJob := valid.findJob member
            rw [sameId, valid.findJob isMember] at foundJob
            exact Option.some.inj foundJob
          · rintro rfl
            rfl
        simp only [sameJob, Option.some.injEq, decide_eq_true_eq]

/-- A specification of another than the current job resolves only to the job
whose number it is, and to nothing if it is the number of no job. -/
def NamesOnly (control : JobControl) (spec : ByteString) : Prop :=
  (∀ job, control.resolveJob spec = some job →
      Numeral (specText spec) job.id) ∧
    ∀ number, Numeral (specText spec) number →
      (∀ job ∈ control.jobs, job.id ≠ number) →
      control.resolveJob spec = none

/--
A specification names only the job it says, unless a positive numeral up to its
first NUL byte is narrowed to the number of a job and either there is a NUL byte
or the number has changed.  The specifications of the current job resolve to
the job that the listing marks, and to nothing if it lists none.
-/
theorem job_spec_names_job
    {session : Session} (reachable : jobSystem.Reachable session)
    (spec : ByteString) :
    (¬ NamesCurrent spec →
      (NamesOnly session.control spec ↔
        ∀ number, Numeral (visible spec) number → 0 < number →
          0 ≤ asInt number →
          (∃ job ∈ session.control.jobs, job.id = asInt number) →
          0 ∉ spec ∧ asInt number = number)) ∧
    (NamesCurrent spec →
      renderJobs session.control =
          renderMarked
            (fun job => session.control.resolveJob spec = some job)
            session.control ∧
        (∀ job, session.control.resolveJob spec = some job →
          job ∈ session.control.jobs ∧ job.state ≠ .done) ∧
        ∀ number, ¬ Numeral (specText spec) number) := by
  have valid := reachable_tableValid reachable
  constructor
  · intro other
    constructor
    · rintro ⟨names, -⟩ number numeral positive notNegative
        ⟨job, isMember, sameId⟩
      have resolved :=
        (resolveJob_eq_some_iff valid other).mpr
          ⟨isMember, number, numeral, positive, notNegative, sameId⟩
      have said := names job resolved
      have noNul := zero_not_mem_of_numeral said
      rw [visible_of_noNul noNul] at numeral
      exact ⟨noNul, sameId.symm.trans (said.unique numeral)⟩
    · intro exactly
      have named {job : Job}
          (resolved : session.control.resolveJob spec = some job) :
          job ∈ session.control.jobs ∧ Numeral (specText spec) job.id := by
        rcases (resolveJob_eq_some_iff valid other).mp resolved with
          ⟨isMember, number, numeral, positive, notNegative, sameId⟩
        rcases exactly number numeral positive notNegative
            ⟨job, isMember, sameId⟩ with ⟨noNul, unchanged⟩
        rw [visible_of_noNul noNul] at numeral
        rw [sameId, unchanged]
        exact ⟨isMember, numeral⟩
      refine ⟨fun job resolved => (named resolved).2, ?_⟩
      intro number numeral absent
      refine Option.eq_none_iff_forall_ne_some.mpr fun job resolved => ?_
      rcases named resolved with ⟨isMember, said⟩
      exact absent job isMember (said.unique numeral)
  · intro current
    refine ⟨renderJobs_marks_current valid current, ?_,
      fun _ numeral => not_namesCurrent_of_numeral numeral current⟩
    intro job resolved
    refine ⟨resolveJob_mem resolved, ?_⟩
    rw [resolveJob_of_namesCurrent current] at resolved
    simpa using List.find?_some resolved

def oneJob : List Operation :=
  [.launch 10 [] 10 (literal "sleep 9")]

theorem job_spec_names_job_sample :
    ∃ session job,
      jobSystem.run sampleStart oneJob = some session ∧
        session.control.resolveJob (literal "%1") = some job ∧
        job.id = 1 ∧
        session.control.resolveJob (literal "%2") = none ∧
        renderJobs session.control =
          renderMarked
            (fun job => session.control.resolveJob (literal "%+") = some job)
            session.control := by
  have ran :
      (jobSystem.run sampleStart oneJob).bind
          (fun session =>
            (session.control.resolveJob (literal "%1")).map fun job =>
              (job.id, session.control.jobs.map Job.id)) =
        some (1, [1]) := by
    decide +kernel
  rcases Option.bind_eq_some_iff.mp ran with ⟨session, reached, found⟩
  rcases Option.map_eq_some_iff.mp found with ⟨job, resolved, equal⟩
  rcases Prod.mk.inj equal with ⟨isOne, ids⟩
  have reachable : jobSystem.Reachable session :=
    ⟨sampleStart, oneJob, ⟨rfl, rfl, rfl⟩, reached⟩
  have one : Numeral (specText (literal "%1")) 1 :=
    numeral_iff.mpr ⟨.absent, 1, rfl, rfl⟩
  have two : Numeral (specText (literal "%2")) 2 :=
    numeral_iff.mpr ⟨.absent, 2, rfl, rfl⟩
  have namesOne : NamesOnly session.control (literal "%1") := by
    refine ((job_spec_names_job reachable _).1 (by decide)).mpr ?_
    intro number numeral _ _ _
    rw [numeral.unique one]
    decide
  have namesTwo : NamesOnly session.control (literal "%2") := by
    refine ((job_spec_names_job reachable _).1 (by decide)).mpr ?_
    intro number numeral _ _ _
    rw [numeral.unique two]
    decide
  refine ⟨session, job, reached, resolved,
    (namesOne.1 job resolved).unique one, ?_, ?_⟩
  · refine namesTwo.2 2 two fun other isMember => ?_
    have isId := List.mem_map_of_mem (f := Job.id) isMember
    rw [ids, List.mem_singleton] at isId
    rw [isId]
    decide
  · exact ((job_spec_names_job reachable (literal "%+")).2
      (Or.inr (Or.inr rfl))).1

/-- The number 4294967297, one more than the size of `int`, finds job 1. -/
theorem large_numeral_finds_job :
    ∃ session job,
      jobSystem.run sampleStart oneJob = some session ∧
        Numeral (specText (literal "%4294967297")) 4294967297 ∧
        session.control.resolveJob (literal "%4294967297") = some job ∧
        job.id = 1 := by
  have ran :
      (jobSystem.run sampleStart oneJob).bind
          (fun session =>
            (session.control.resolveJob (literal "%4294967297")).map
              Job.id) =
        some 1 := by
    decide +kernel
  rcases Option.bind_eq_some_iff.mp ran with ⟨session, reached, found⟩
  rcases Option.map_eq_some_iff.mp found with ⟨job, resolved, isOne⟩
  refine ⟨session, job, reached, ?_, resolved, isOne⟩
  exact numeral_iff.mpr ⟨.absent, 4294967297, by decide +kernel, rfl⟩

end Shell.JobSpecs
