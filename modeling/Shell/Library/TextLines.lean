import Mathlib.Data.List.Basic

/-!
# Lines of a text

A text is cut behind every terminator; what stands behind the last one is a
line too, unless there is nothing.  Cutting undoes the joining of lines without
terminators, and joining undoes the cutting of a text that is empty or ends in
a terminator.  `List.splitOn` cuts the same text into one more piece in that
case, the empty one at the end, and into the same pieces in all others.
-/

namespace Shell.TextLines

variable {Symbol : Type*} [DecidableEq Symbol]

/-- The lines of a text, the first of which begins with some symbols. -/
def linesFrom (terminator : Symbol) (line : List Symbol) :
    List Symbol → List (List Symbol)
  | [] => if line = [] then [] else [line]
  | symbol :: rest =>
      if symbol = terminator then line :: linesFrom terminator [] rest
      else linesFrom terminator (line ++ [symbol]) rest

def linesOf (terminator : Symbol) (text : List Symbol) :
    List (List Symbol) :=
  linesFrom terminator [] text

def joinLines (terminator : Symbol) (lines : List (List Symbol)) :
    List Symbol :=
  lines.flatMap fun line => line ++ [terminator]

/-- Every line is without a terminator. -/
def Plain (terminator : Symbol) (lines : List (List Symbol)) : Prop :=
  ∀ line ∈ lines, terminator ∉ line

variable {terminator : Symbol}

omit [DecidableEq Symbol] in
theorem joinLines_append (front back : List (List Symbol)) :
    joinLines terminator (front ++ back) =
      joinLines terminator front ++ joinLines terminator back :=
  List.flatMap_append

omit [DecidableEq Symbol] in
theorem Plain.append
    {front back : List (List Symbol)} (plainFront : Plain terminator front)
    (plainBack : Plain terminator back) :
    Plain terminator (front ++ back) := by
  intro line isLine
  rcases List.mem_append.mp isLine with inFront | inBack
  · exact plainFront line inFront
  · exact plainBack line inBack

omit [DecidableEq Symbol] in
theorem Plain.subset
    {lines fewer : List (List Symbol)} (plain : Plain terminator lines)
    (isSubset : fewer ⊆ lines) : Plain terminator fewer :=
  fun line isLine => plain line (isSubset isLine)

theorem linesFrom_append_terminator
    {rest : List Symbol} (plain : terminator ∉ rest)
    (line text : List Symbol) :
    linesFrom terminator line (rest ++ terminator :: text) =
      (line ++ rest) :: linesOf terminator text := by
  induction rest generalizing line with
  | nil =>
      rw [List.nil_append, linesFrom, if_pos rfl, List.append_nil]
      rfl
  | cons symbol rest induction =>
      rcases not_or.mp (mt List.mem_cons.mpr plain) with ⟨other, later⟩
      rw [List.cons_append, linesFrom, if_neg (Ne.symm other),
        induction later, List.append_assoc]
      rfl

theorem linesOf_joinLines_append
    {lines : List (List Symbol)} (plain : Plain terminator lines)
    (text : List Symbol) :
    linesOf terminator (joinLines terminator lines ++ text) =
      lines ++ linesOf terminator text := by
  induction lines with
  | nil => rfl
  | cons line lines induction =>
      rcases List.forall_mem_cons.mp plain with ⟨first, later⟩
      rw [joinLines, List.flatMap_cons, ← joinLines, List.append_assoc,
        List.append_assoc, List.singleton_append, linesOf,
        linesFrom_append_terminator first, induction later]
      rfl

theorem linesOf_joinLines
    {lines : List (List Symbol)} (plain : Plain terminator lines) :
    linesOf terminator (joinLines terminator lines) = lines := by
  have joined := linesOf_joinLines_append plain []
  rwa [List.append_nil, show linesOf terminator [] = [] from rfl,
    List.append_nil] at joined

theorem plain_linesFrom
    {line : List Symbol} (plain : terminator ∉ line) (text : List Symbol) :
    Plain terminator (linesFrom terminator line text) := by
  induction text generalizing line with
  | nil =>
      rw [linesFrom]
      split_ifs
      · exact nofun
      · intro other isLine
        rw [List.mem_singleton.mp isLine]
        exact plain
  | cons symbol rest induction =>
      rw [linesFrom]
      split_ifs with isTerminator
      · exact List.forall_mem_cons.mpr ⟨plain, induction List.not_mem_nil⟩
      · apply induction
        rw [List.mem_append, List.mem_singleton]
        exact not_or.mpr ⟨plain, Ne.symm isTerminator⟩

theorem plain_linesOf (text : List Symbol) :
    Plain terminator (linesOf terminator text) :=
  plain_linesFrom List.not_mem_nil text

theorem joinLines_linesFrom
    {text : List Symbol} (ends : text.getLast? = some terminator)
    (line : List Symbol) :
    joinLines terminator (linesFrom terminator line text) =
      line ++ text := by
  induction text generalizing line with
  | nil => cases ends
  | cons symbol rest induction =>
      rw [linesFrom]
      cases rest with
      | nil =>
          have isTerminator : symbol = terminator := Option.some.inj ends
          rw [if_pos isTerminator, isTerminator]
          exact List.append_nil _
      | cons second later =>
          rw [List.getLast?_cons_cons] at ends
          split_ifs with isTerminator
          · rw [joinLines, List.flatMap_cons, ← joinLines, induction ends,
              isTerminator, List.append_assoc]
            rfl
          · rw [induction ends, List.append_assoc]
            rfl

/-- The text is empty or ends in a terminator. -/
def Terminated (terminator : Symbol) (text : List Symbol) : Prop :=
  text = [] ∨ text.getLast? = some terminator

instance (text : List Symbol) : Decidable (Terminated terminator text) :=
  inferInstanceAs (Decidable (_ ∨ _))

theorem joinLines_linesOf
    {text : List Symbol} (terminated : Terminated terminator text) :
    joinLines terminator (linesOf terminator text) = text := by
  rcases terminated with rfl | ends
  · rfl
  · exact joinLines_linesFrom ends []

/-- A plain line is found among lines that need not be plain. -/
theorem mem_linesOf_joinLines
    {lines : List (List Symbol)} {line : List Symbol}
    (isLine : line ∈ lines) (plain : terminator ∉ line) :
    line ∈ linesOf terminator (joinLines terminator lines) := by
  rcases List.append_of_mem isLine with ⟨front, back, rfl⟩
  have terminated : Terminated terminator (joinLines terminator front) := by
    rcases List.eq_nil_or_concat front with rfl | ⟨earlier, last, rfl⟩
    · exact Or.inl rfl
    · right
      rw [List.concat_eq_append, joinLines_append]
      simp [joinLines]
  have plainFront :
      Plain terminator (linesOf terminator (joinLines terminator front)) :=
    plain_linesOf _
  have split :=
    linesOf_joinLines_append plainFront (joinLines terminator (line :: back))
  rw [joinLines_linesOf terminated, ← joinLines_append] at split
  have first :
      linesOf terminator (joinLines terminator (line :: back)) =
        line :: linesOf terminator (joinLines terminator back) := by
    rw [joinLines, List.flatMap_cons, List.append_assoc,
      List.singleton_append, linesOf, linesFrom_append_terminator plain]
    rfl
  rw [split, first]
  exact List.mem_append_right _ List.mem_cons_self

/-! ## Terminators as separators -/

theorem splitOn_joinLines
    {lines : List (List Symbol)} (plain : Plain terminator lines) :
    (joinLines terminator lines).splitOn terminator = lines ++ [[]] := by
  induction lines with
  | nil => rfl
  | cons line lines induction =>
      rcases List.forall_mem_cons.mp plain with ⟨first, later⟩
      have noTerminator : ∀ symbol ∈ line, (symbol == terminator) = false := by
        intro symbol member
        rw [beq_eq_false_iff_ne]
        rintro rfl
        exact first member
      rw [joinLines, List.flatMap_cons, ← joinLines, List.append_assoc,
        List.singleton_append, List.splitOn,
        List.splitOnP_append_cons_of_forall_mem noTerminator _
          (beq_self_eq_true terminator)]
      exact congrArg (List.cons line) (induction later)

/-- The empty piece behind the last terminator is not a line. -/
theorem splitOn_of_terminated
    {text : List Symbol} (terminated : Terminated terminator text) :
    text.splitOn terminator = linesOf terminator text ++ [[]] := by
  have plain : Plain terminator (linesOf terminator text) := plain_linesOf text
  have split := splitOn_joinLines plain
  rwa [joinLines_linesOf terminated] at split

theorem splitOn_linesFrom
    {line text : List Symbol} (nonempty : line ++ text ≠ [])
    (unterminated : text.getLast? ≠ some terminator) :
    (text.splitOn terminator).modifyHead (line ++ ·) =
      linesFrom terminator line text := by
  induction text generalizing line with
  | nil =>
      rw [List.append_nil] at nonempty
      simp [linesFrom, nonempty]
  | cons symbol rest induction =>
      have restOpen : rest.getLast? ≠ some terminator := by
        intro ends
        apply unterminated
        rw [List.getLast?_cons, ends]
        rfl
      rw [List.splitOn, List.splitOnP_cons_eq_if_modifyHead, ← List.splitOn,
        linesFrom]
      by_cases isTerminator : symbol = terminator
      · have restNonempty : [] ++ rest ≠ [] := by
          rintro rfl
          exact unterminated (congrArg some isTerminator)
        rw [if_pos (beq_iff_eq.mpr isTerminator), if_pos isTerminator,
          ← induction restNonempty restOpen, List.modifyHead_cons,
          List.append_nil]
        exact congrArg (List.cons line) (congrFun List.modifyHead_id _).symm
      · rw [if_neg (mt beq_iff_eq.mp isTerminator), if_neg isTerminator,
          ← induction (by simp) restOpen]
        simp [List.modifyHead_modifyHead, Function.comp_def]

theorem splitOn_of_not_terminated
    {text : List Symbol} (unterminated : ¬ Terminated terminator text) :
    text.splitOn terminator = linesOf terminator text := by
  rcases not_or.mp unterminated with ⟨nonempty, isOpen⟩
  have lines :
      (text.splitOn terminator).modifyHead ([] ++ ·) =
        linesFrom terminator [] text :=
    splitOn_linesFrom nonempty isOpen
  rw [linesOf, ← lines]
  exact (congrFun List.modifyHead_id _).symm

end Shell.TextLines
