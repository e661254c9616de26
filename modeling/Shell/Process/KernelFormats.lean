import Mathlib.Data.List.Forall2
import Shell.Parsing.Numerals
import Shell.Process.Information

/-!
# The texts of the kernel

The kernel writes the name of a process into two files.  In `stat` it stands
between parentheses as it is, whatever its bytes; `parse_stat` finds it all the
same, since no field behind it contains a parenthesis.  In `status` it stands
on a line of its own, where line breaks and backslashes are escaped.
`parse_status` does not undo this and trims the name as well, so that it
replaces some names by other texts.
-/

namespace Shell.KernelFormats

open Shell.Syntax
open Shell.JobTable
open Shell.Numerals
open Shell.TextLines
open Shell.TextSearch
open Shell.ProcessInformation

/-! ## Decimal fields -/

/-- A number as the kernel writes it: digits, behind a minus sign if the number
is negative. -/
inductive DecimalField : ByteString → Int → Prop where
  | natural {digits : ByteString} (nonempty : digits ≠ [])
      (areDigits : ∀ character ∈ digits, isDigit character = true) :
      DecimalField digits (decimalValue digits)
  | negative {digits : ByteString} (nonempty : digits ≠ [])
      (areDigits : ∀ character ∈ digits, isDigit character = true)
      (nonzero : decimalValue digits ≠ 0) :
      DecimalField (0x2d :: digits) (-decimalValue digits)

/-- The characters of a field. -/
def isFieldCharacter (character : UInt8) : Bool :=
  character = 0x2d || isDigit character

/-- The characters of a field are none of those that structure the line. -/
theorem fieldCharacter_plain
    {character : UInt8} (inField : isFieldCharacter character = true) :
    isSpace character = false ∧ isTrimmed character = false ∧
      character ≠ 0x28 ∧ character ≠ 0x29 := by
  simp only [isFieldCharacter, Bool.or_eq_true, decide_eq_true_eq] at inField
  rcases inField with rfl | digit
  · decide
  · refine ⟨isSpace_of_isDigit digit, ?_, ?_, ?_⟩
    · cases trimmed : isTrimmed character with
      | false => rfl
      | true =>
          simp only [isTrimmed, Bool.or_eq_true, decide_eq_true_eq] at trimmed
          rcases trimmed with ((rfl | rfl) | rfl) | rfl <;> cases digit
    · rintro rfl
      cases digit
    · rintro rfl
      cases digit

namespace DecimalField

variable {text : ByteString} {value : Int}

theorem nonempty (field : DecimalField text value) : text ≠ [] := by
  cases field with
  | natural nonempty => exact nonempty
  | negative => exact List.cons_ne_nil _ _

theorem characters
    (field : DecimalField text value) :
    ∀ character ∈ text, isFieldCharacter character = true := by
  cases field with
  | natural nonempty areDigits =>
      intro character isCharacter
      simp [isFieldCharacter, areDigits character isCharacter]
  | negative nonempty areDigits nonzero =>
      intro character isCharacter
      rcases List.mem_cons.mp isCharacter with rfl | later
      · rfl
      · simp [isFieldCharacter, areDigits character later]

theorem isWord (field : DecimalField text value) : IsWord isSpace text where
  nonempty := field.nonempty
  whole character isCharacter :=
    (fieldCharacter_plain (field.characters character isCharacter)).1

theorem trim_eq
    (field : DecimalField text value) {back : ByteString}
    (isBack : ∀ character ∈ back, isTrimmed character = true) :
    trim isTrimmed (text ++ back) = text := by
  have plain : ∀ character ∈ text, isTrimmed character = false :=
    fun character isCharacter =>
      (fieldCharacter_plain (field.characters character isCharacter)).2.1
  refine trim_surrounded (List.forall_mem_nil _) isBack ?_ ?_
  · exact fun character first => plain character (List.mem_of_mem_head? first)
  · exact fun character last =>
      plain character (List.mem_of_mem_getLast? last)

theorem scanDigits_digits
    {digits : ByteString} (nonempty : digits ≠ [])
    (areDigits : ∀ character ∈ digits, isDigit character = true) :
    ∃ count,
      scanDigits 0 digits = (decimalValue digits, count + 1, []) := by
  rw [scanDigits_zero, List.takeWhile_eq_self_iff.mpr areDigits,
    List.dropWhile_eq_nil_iff.mpr areDigits]
  cases digits with
  | nil => exact absurd rfl nonempty
  | cons first later => exact ⟨later.length, rfl⟩

theorem takeMinus_digits
    {digits : ByteString}
    (areDigits : ∀ character ∈ digits, isDigit character = true)
    (type : IntegerType) :
    takeMinus type digits = (false, digits) := by
  apply takeMinus.eq_2
  rintro rest rfl
  cases areDigits 0x2d List.mem_cons_self

/-- `from_chars` reads a field that fits into its type. -/
theorem fromChars_eq
    (field : DecimalField text value) {type : IntegerType}
    (fits : type.Contains value) :
    fromChars type text = some (value, []) := by
  cases field with
  | natural nonempty areDigits =>
      rcases scanDigits_digits nonempty areDigits with ⟨count, scanned⟩
      simp only [fromChars, takeMinus_digits areDigits, scanned,
        Bool.false_eq_true, if_false, if_pos fits]
  | negative nonempty areDigits nonzero =>
      rcases scanDigits_digits nonempty areDigits with ⟨count, scanned⟩
      have signed : type.low < 0 := by
        have above := fits.1
        omega
      simp only [fromChars, takeMinus, if_pos signed, scanned, if_true,
        if_pos fits]

theorem parseInteger_eq
    (field : DecimalField text value) {type : IntegerType}
    (fits : type.Contains value) {back : ByteString}
    (isBack : ∀ character ∈ back, isTrimmed character = true) :
    parseInteger type (text ++ back) = some value := by
  simp only [parseInteger, field.trim_eq isBack, if_neg field.nonempty,
    field.fromChars_eq fits]

end DecimalField

/-! ## Reads inside of a text -/

theorem substring_middle
    {text front middle back : ByteString}
    (split : text = front ++ (middle ++ back)) {start count : Nat}
    (isStart : start = front.length) (isCount : count = middle.length) :
    substring text start count = .ok middle := by
  have inside : ¬ front.length > text.length := by
    rw [split, List.length_append]
    omega
  rw [substring, isStart, isCount, if_neg inside, split, List.drop_left,
    List.take_left]

theorem substring_rest
    {text front back : ByteString} (split : text = front ++ back)
    {start : Nat} (isStart : start = front.length) :
    substring text start text.length = .ok back := by
  have inside : ¬ front.length > text.length := by
    rw [split, List.length_append]
    omega
  rw [substring, isStart, if_neg inside, split, List.drop_left,
    List.take_of_length_le]
  rw [List.length_append]
  omega

theorem characterAt_middle
    {text front back : ByteString} {character : UInt8}
    (split : text = front ++ character :: back) {index : Nat}
    (isIndex : index = front.length) :
    characterAt text index = .ok character := by
  have there : text[index]? = some character := by
    rw [split, isIndex, List.getElem?_append_right (Nat.le_refl _),
      Nat.sub_self]
    rfl
  rw [characterAt, there]

/-! ## `stat` -/

/-- The fields of the line that are read, with the range of each. -/
def kernelRanges : List (Nat × IntegerType) :=
  [(0, pidType), (1, pidType), (2, pidType), (4, pidType),
    (10, unsignedType), (11, unsignedType), (14, longType), (15, longType),
    (16, longType)]

/-- A line of `stat` and what it says.  Any bytes may stand for the name. -/
structure StatLine where
  pidText : ByteString
  pid : Int
  comm : ByteString
  state : UInt8
  fieldTexts : List ByteString
  fields : List Int
  trailing : ByteString
  isPid : DecimalField pidText pid
  pidFits : pidType.Contains pid
  isLetter :
    0x41 ≤ state ∧ state ≤ 0x5a ∨ 0x61 ≤ state ∧ state ≤ 0x7a
  areFields : List.Forall₂ DecimalField fieldTexts fields
  enough : 21 ≤ fields.length
  fit :
    ∀ entry ∈ kernelRanges, ∀ value ∈ fields[entry.1]?,
      entry.2.Contains value
  ends : ∀ character ∈ trailing, isSpace character = true

namespace StatLine

/-- The text behind the state. -/
def tail (line : StatLine) : ByteString :=
  [blank].intercalate line.fieldTexts ++ line.trailing

def text (line : StatLine) : ByteString :=
  line.pidText ++
    (literal " (" ++
      (line.comm ++
        (literal ") " ++ (line.state :: blank :: line.tail))))

variable (line : StatLine)

/-- The text of a field, by the number that it stands for. -/
theorem fieldTexts_at
    {index : Nat} {value : Int} (isValue : line.fields[index]? = some value) :
    ∃ text, line.fieldTexts[index]? = some text ∧ DecimalField text value := by
  rcases List.getElem?_eq_some_iff.mp isValue with ⟨inFields, rfl⟩
  rcases List.forall₂_iff_get.mp line.areFields with ⟨sameLength, same⟩
  have inTexts : index < line.fieldTexts.length := by omega
  exact ⟨line.fieldTexts[index], List.getElem?_eq_getElem inTexts,
    same index inTexts inFields⟩

theorem isField
    {text : ByteString} (isText : text ∈ line.fieldTexts) :
    ∃ value, DecimalField text value := by
  rcases List.mem_iff_get.mp isText with ⟨index, rfl⟩
  rcases List.forall₂_iff_get.mp line.areFields with ⟨sameLength, same⟩
  exact ⟨_, same index.val index.isLt (sameLength ▸ index.isLt)⟩

theorem words_tail : words isSpace line.tail = line.fieldTexts := by
  apply words_intercalate _ rfl line.ends
  intro text isText
  rcases line.isField isText with ⟨value, field⟩
  exact field.isWord

theorem closeParen_not_mem_tail : 0x29 ∉ line.tail := by
  intro isMember
  rcases List.mem_append.mp isMember with inFields | inTrailing
  · rcases mem_intercalate inFields with isBlank | ⟨text, isText, inside⟩
    · cases isBlank
    · rcases line.isField isText with ⟨value, field⟩
      exact (fieldCharacter_plain (field.characters _ inside)).2.2.2 rfl
  · cases line.ends 0x29 inTrailing

theorem find_openParen :
    find 0x28 line.text = some (line.pidText.length + 1) := by
  have absent : 0x28 ∉ line.pidText ++ [blank] := by
    intro isMember
    rcases List.mem_append.mp isMember with inPid | isBlank
    · exact (fieldCharacter_plain
        (line.isPid.characters _ inPid)).2.2.1 rfl
    · cases List.mem_singleton.mp isBlank
  have found :=
    find_append absent
      (line.comm ++ (literal ") " ++ (line.state :: blank :: line.tail)))
  rw [List.append_assoc, List.length_append] at found
  exact found

theorem rfind_closeParen :
    rfind 0x29 line.text =
      some (line.pidText.length + 2 + line.comm.length) := by
  -- The name may end in parentheses, but nothing behind it has one.
  have absent : 0x29 ∉ blank :: line.state :: blank :: line.tail := by
    intro isMember
    simp only [List.mem_cons] at isMember
    rcases isMember with isBlank | isState | isBlank | inTail
    · cases isBlank
    · have isLetter := line.isLetter
      rw [← isState] at isLetter
      exact absurd isLetter (by decide)
    · cases isBlank
    · exact line.closeParen_not_mem_tail inTail
  have found :=
    rfind_append absent (line.pidText ++ (literal " (" ++ line.comm))
  rw [List.append_assoc, List.append_assoc, List.length_append,
    List.length_append, ← Nat.add_assoc] at found
  exact found

theorem length_text :
    line.text.length =
      line.pidText.length + 2 + line.comm.length + 4 + line.tail.length := by
  have blankParen : (literal " (").length = 2 := rfl
  have parenBlank : (literal ") ").length = 2 := rfl
  simp only [text, List.length_append, List.length_cons, blankParen,
    parenBlank]
  omega

/-- `parse_stat` comes to the fields with the name and the state. -/
theorem parseStat_eq (ticksPerSecond : Int) (info : ProcessInfo) :
    parseStat ticksPerSecond line.text info =
      parseStatTail ticksPerSecond line.tail
        { info with
          pid := line.pid
          name := line.comm
          state := stateDescription line.state } := by
  have wellFormed :
      ¬ (line.pidText.length + 2 + line.comm.length ≤
            line.pidText.length + 1 ∨
          line.pidText.length + 2 + line.comm.length + 2 ≥
            line.text.length) := by
    rw [line.length_text]
    omega
  have complete :
      ¬ line.pidText.length + 2 + line.comm.length + 4 >
        line.text.length := by
    rw [line.length_text]
    omega
  have front :
      substring line.text 0 (line.pidText.length + 1) =
        .ok (line.pidText ++ [blank]) := by
    have split :
        line.text =
          [] ++
            ((line.pidText ++ [blank]) ++
              (0x28 :: (line.comm ++
                (literal ") " ++ (line.state :: blank :: line.tail))))) :=
      (List.append_assoc line.pidText [blank] _).symm
    apply substring_middle split rfl
    rw [List.length_append]
    rfl
  have name :
      substring line.text (line.pidText.length + 1 + 1)
          (line.pidText.length + 2 + line.comm.length -
            (line.pidText.length + 1) - 1) =
        .ok line.comm := by
    have split :
        line.text =
          (line.pidText ++ literal " (") ++
            (line.comm ++
              (literal ") " ++ (line.state :: blank :: line.tail))) :=
      (List.append_assoc line.pidText (literal " (") _).symm
    apply substring_middle split _ (by omega)
    rw [List.length_append]
    rfl
  have split :
      line.text =
        (line.pidText ++ (literal " (" ++ (line.comm ++ literal ") "))) ++
          line.state :: blank :: line.tail := by
    simp only [text, List.append_assoc]
  have state :
      characterAt line.text
          (line.pidText.length + 2 + line.comm.length + 2) =
        .ok line.state := by
    apply characterAt_middle split
    simp only [List.length_append, ← Nat.add_assoc]
    rfl
  have rest :
      substring line.text
          (line.pidText.length + 2 + line.comm.length + 4)
          line.text.length =
        .ok line.tail := by
    have behind :
        line.text =
          (line.pidText ++
              (literal " (" ++
                (line.comm ++ (literal ") " ++ [line.state, blank])))) ++
            line.tail := by
      rw [split]
      simp only [List.append_assoc, List.cons_append, List.nil_append]
    apply substring_rest behind
    simp only [List.length_append, ← Nat.add_assoc]
    rfl
  have pid : parseInteger pidType (line.pidText ++ [blank]) = some line.pid :=
    line.isPid.parseInteger_eq line.pidFits
      (List.forall_mem_singleton.mpr rfl)
  simp only [parseStat, line.find_openParen, line.rfind_closeParen,
    if_neg wellFormed, front, pid, name, state, if_neg complete, rest]
  rfl

/-- One of the first fields behind the state. -/
def field (index : Nat) : Int :=
  line.fields.getD index 0

theorem getElem?_fields {index : Nat} (early : index < 21) :
    line.fields[index]? = some (line.field index) := by
  have inside : index < line.fields.length :=
    Nat.lt_of_lt_of_le early line.enough
  rw [field, List.getD_eq_getElem?_getD, List.getElem?_eq_getElem inside]
  rfl

/-- The fields that are read fit into the types that they are read with. -/
theorem statField_fits
    {index : Nat} {type : IntegerType} (isRead : (index, type) ∈ statFields) :
    index < 21 ∧ type.Contains (line.field index) := by
  have table :
      statFields.all
        (fun entry =>
          entry.1 < 21 &&
            kernelRanges.any fun range =>
              range.1 = entry.1 && entry.2.low ≤ range.2.low &&
                range.2.high ≤ entry.2.high) = true := by
    decide
  have row := List.all_eq_true.mp table _ isRead
  rw [Bool.and_eq_true] at row
  have early : index < 21 := of_decide_eq_true row.1
  rcases List.any_eq_true.mp row.2 with ⟨⟨place, range⟩, isRange, wider⟩
  simp only [Bool.and_eq_true, decide_eq_true_eq] at wider
  rcases wider with ⟨⟨rfl, low⟩, high⟩
  rcases line.fit _ isRange _ (line.getElem?_fields early) with
    ⟨above, below⟩
  exact ⟨early, Int.le_trans low above, Int.le_trans below high⟩

/-- The chain of calls reads the numbers of the line. -/
theorem readFields_eq
    {entries : List (Nat × IntegerType)} (areRead : entries ⊆ statFields) :
    readFields line.fieldTexts entries =
      .ok (some (entries.map fun entry => line.field entry.1)) := by
  induction entries with
  | nil => rfl
  | cons entry later induction =>
      rcases List.cons_subset.mp areRead with ⟨isRead, rest⟩
      rcases line.statField_fits isRead with ⟨early, fits⟩
      rcases line.fieldTexts_at (line.getElem?_fields early) with
        ⟨text, isText, isField⟩
      have parsed :
          parseInteger entry.2 text = some (line.field entry.1) := by
        have whole := isField.parseInteger_eq fits (List.forall_mem_nil _)
        rwa [List.append_nil] at whole
      simp only [readFields, fieldAt, isText, parsed, induction rest,
        List.map_cons, Option.map_some]

/-- A process id survives the conversion to its type. -/
theorem getElem?_fields_pid
    {index : Nat} (early : index < 21)
    (isPid : (index, pidType) ∈ kernelRanges) :
    line.fields[index]? = some (toInt32 (line.field index)) := by
  have isField := line.getElem?_fields early
  rcases line.fit _ isPid _ isField with ⟨above, below⟩
  have same : toInt32 (line.field index) = line.field index :=
    Int.bmod_eq_of_le above (Int.lt_add_one_of_le below)
  rw [isField, same]

end StatLine

/-- What `parse_stat` is to make of a line. -/
structure Reports (line : StatLine) (info : ProcessInfo) : Prop where
  pid : info.pid = line.pid
  name : info.name = line.comm
  state : info.state = stateDescription line.state
  ppid : line.fields[0]? = some info.ppid
  pgid : line.fields[1]? = some info.pgid
  sessionId : line.fields[2]? = some info.sessionId
  foregroundPgid : line.fields[4]? = some info.foregroundPgid
  priority : line.fields[14]? = some info.priority
  niceValue : line.fields[15]? = some info.niceValue
  threads : line.fields[16]? = some info.threads

theorem reports_storeFields
    (line : StatLine) (ticksPerSecond : Int) (info : ProcessInfo) :
    Reports line
      (storeFields ticksPerSecond
        { info with
          pid := line.pid
          name := line.comm
          state := stateDescription line.state }
        (statFields.map fun entry => line.field entry.1)) := by
  simp only [statFields, List.map_cons, List.map_nil, storeFields]
  split_ifs
  all_goals
    constructor
    · rfl
    · rfl
    · rfl
    · exact line.getElem?_fields_pid (by decide) (by decide)
    · exact line.getElem?_fields_pid (by decide) (by decide)
    · exact line.getElem?_fields_pid (by decide) (by decide)
    · exact line.getElem?_fields_pid (by decide) (by decide)
    · exact line.getElem?_fields (by decide)
    · exact line.getElem?_fields (by decide)
    · exact line.getElem?_fields (by decide)

theorem parseStat_reports
    (line : StatLine) (ticksPerSecond : Int) (info : ProcessInfo) :
    ∃ final,
      parseStat ticksPerSecond line.text info = .ok (none, final) ∧
        Reports line final := by
  have enough : ¬ line.fieldTexts.length ≤ 20 := by
    have sameLength := line.areFields.length_eq
    have many := line.enough
    omega
  have read := line.readFields_eq (List.Subset.refl statFields)
  rw [line.parseStat_eq, parseStatTail]
  simp only [line.words_tail, if_neg enough, read]
  exact ⟨_, rfl, reports_storeFields line ticksPerSecond info⟩

/-! ## Every other text -/

theorem readFields_inside
    {tail : List ByteString} {entries : List (Nat × IntegerType)}
    (inside : ∀ entry ∈ entries, entry.1 < tail.length) :
    ∃ values, readFields tail entries = .ok values := by
  induction entries with
  | nil => exact ⟨_, rfl⟩
  | cons entry later induction =>
      rcases List.forall_mem_cons.mp inside with ⟨first, rest⟩
      rcases induction rest with ⟨values, read⟩
      simp only [readFields, fieldAt, List.getElem?_eq_getElem first, read]
      cases parseInteger entry.2 tail[entry.1] with
      | none => exact ⟨_, rfl⟩
      | some value => exact ⟨_, rfl⟩

theorem parseStatTail_inside
    (ticksPerSecond : Int) (text : ByteString) (info : ProcessInfo) :
    ∃ result, parseStatTail ticksPerSecond text info = .ok result := by
  simp only [parseStatTail]
  split_ifs with few
  · exact ⟨_, rfl⟩
  · have inside :
        ∀ entry ∈ statFields, entry.1 < (words isSpace text).length := by
      intro entry isRead
      have table : statFields.all (fun entry => entry.1 < 21) = true := by
        decide
      have small := of_decide_eq_true (List.all_eq_true.mp table _ isRead)
      omega
    rcases readFields_inside inside with ⟨values, read⟩
    rw [read]
    cases values with
    | none => exact ⟨_, rfl⟩
    | some numbers => exact ⟨_, rfl⟩

theorem substring_inside
    {text : ByteString} {start : Nat} (inside : start ≤ text.length)
    (count : Nat) :
    substring text start count = .ok ((text.drop start).take count) :=
  if_neg (Nat.not_lt.mpr inside)

theorem characterAt_inside
    {text : ByteString} {index : Nat} (inside : index < text.length) :
    characterAt text index = .ok text[index] := by
  rw [characterAt, List.getElem?_eq_getElem inside]

/-- `parse_stat` never reads outside of the text and its fields. -/
theorem parseStat_inside
    (ticksPerSecond : Int) (text : ByteString) (info : ProcessInfo) :
    ∃ result, parseStat ticksPerSecond text info = .ok result := by
  unfold parseStat
  split
  · rename_i openParen closeParen opened closed
    have openInside := find_lt opened
    by_cases malformed :
        closeParen ≤ openParen ∨ closeParen + 2 ≥ text.length
    · rw [if_pos malformed]
      exact ⟨_, rfl⟩
    · rw [if_neg malformed, substring_inside (Nat.zero_le _)]
      dsimp only
      split
      · exact ⟨_, rfl⟩
      · rw [substring_inside (by omega), characterAt_inside (by omega)]
        by_cases truncated : closeParen + 4 > text.length
        · exact ⟨_, if_pos truncated⟩
        · rw [substring_inside (by omega)]
          rcases parseStatTail_inside ticksPerSecond
            ((text.drop (closeParen + 4)).take text.length) _ with
            ⟨result, parsed⟩
          exact ⟨result, (if_neg truncated).trans parsed⟩
  · exact ⟨_, rfl⟩

/--
`parse_stat` inverts the line of the kernel for every name, and whatever text
it is given, it reads positions and fields that exist.
-/
theorem stat_line_inverted (ticksPerSecond : Int) (info : ProcessInfo) :
    (∀ line : StatLine,
      ∃ final,
        parseStat ticksPerSecond line.text info = .ok (none, final) ∧
          Reports line final) ∧
      ∀ text, ∃ result, parseStat ticksPerSecond text info = .ok result :=
  ⟨fun line => parseStat_reports line ticksPerSecond info,
    fun text => parseStat_inside ticksPerSecond text info⟩

/-! ## `status` -/

/-- A byte of the name as the kernel writes it into `status`. -/
def escapeByte (byte : UInt8) : ByteString :=
  if byte = newline then literal "\\n"
  else if byte = backslash then literal "\\\\"
  else [byte]

def escapeName (comm : ByteString) : ByteString :=
  comm.flatMap escapeByte

def nameLine (comm : ByteString) : ByteString :=
  literal "Name:\t" ++ escapeName comm

/-- The text in front of the colon. -/
def lineKey (line : ByteString) : Option ByteString :=
  (find 0x3a line).map line.take

/-- A text of `status` with the name of the process on one of its lines. -/
structure StatusText (comm : ByteString) where
  before : List ByteString
  after : List ByteString
  plainBefore : Plain newline before
  plainAfter : Plain newline after
  otherBefore : ∀ line ∈ before, lineKey line ≠ some (literal "Name")
  otherAfter : ∀ line ∈ after, lineKey line ≠ some (literal "Name")

def StatusText.text {comm : ByteString} (status : StatusText comm) :
    ByteString :=
  joinLines newline (status.before ++ nameLine comm :: status.after)

/-- Only a line with the key `Name` changes the name. -/
theorem name_applyStatusLine
    {line : ByteString} (other : lineKey line ≠ some (literal "Name"))
    (info : ProcessInfo) :
    (applyStatusLine info line).name = info.name := by
  unfold applyStatusLine
  split
  · rfl
  · rename_i colon found
    have different : line.take colon ≠ literal "Name" := by
      intro same
      apply other
      rw [lineKey, found, Option.map_some, same]
    unfold applyStatusValue
    rw [if_neg (fun both => different both.1)]
    split_ifs
    · rfl
    · split <;> rfl
    · rfl
    · rfl
    · rfl
    · rfl
    · split <;> rfl
    · split <;> rfl
    · rfl

theorem name_foldl_applyStatusLine
    {lines : List ByteString}
    (others : ∀ line ∈ lines, lineKey line ≠ some (literal "Name"))
    (info : ProcessInfo) :
    (lines.foldl applyStatusLine info).name = info.name := by
  induction lines generalizing info with
  | nil => rfl
  | cons line lines induction =>
      rcases List.forall_mem_cons.mp others with ⟨first, later⟩
      rw [List.foldl_cons, induction later, name_applyStatusLine first]

theorem newline_not_mem_nameLine (comm : ByteString) :
    newline ∉ nameLine comm := by
  intro isMember
  rcases List.mem_append.mp isMember with inKey | inName
  · exact absurd inKey (by decide)
  · rcases List.mem_flatMap.mp inName with ⟨byte, -, escaped⟩
    unfold escapeByte at escaped
    split_ifs at escaped with isNewline isBackslash
    · exact absurd escaped (by decide)
    · exact absurd escaped (by decide)
    · exact isNewline (List.mem_singleton.mp escaped).symm

/-- `parse_status` looks at the name on its line and nowhere else. -/
theorem name_parseStatus
    {comm : ByteString} (status : StatusText comm) (info : ProcessInfo) :
    ∃ earlier,
      earlier.name = info.name ∧
        (parseStatus status.text info).name =
          (applyStatusLine earlier (nameLine comm)).name := by
  have plain :
      Plain newline (status.before ++ nameLine comm :: status.after) :=
    status.plainBefore.append
      (List.forall_mem_cons.mpr
        ⟨newline_not_mem_nameLine comm, status.plainAfter⟩)
  refine ⟨status.before.foldl applyStatusLine info,
    name_foldl_applyStatusLine status.otherBefore info, ?_⟩
  rw [parseStatus, StatusText.text, linesOf_joinLines plain,
    List.foldl_append, List.foldl_cons,
    name_foldl_applyStatusLine status.otherAfter]

theorem applyStatusLine_nameLine (comm : ByteString) (info : ProcessInfo) :
    applyStatusLine info (nameLine comm) =
      if trim isTrimmed (0x09 :: escapeName comm) = [] then info
      else
        { info with name := trim isTrimmed (0x09 :: escapeName comm) } := by
  have absent : 0x3a ∉ literal "Name" := by decide
  have found : find 0x3a (nameLine comm) = some 4 :=
    find_append absent (0x09 :: escapeName comm)
  have key : (nameLine comm).take 4 = literal "Name" := rfl
  have value : (nameLine comm).drop (4 + 1) = 0x09 :: escapeName comm := rfl
  simp only [applyStatusLine, found, key, value]
  split_ifs with empty
  · rw [empty]
    rfl
  · exact if_pos ⟨rfl, empty⟩

/-- The names that come through both files as they are. -/
structure Unharmed (comm : ByteString) : Prop where
  unescaped : ∀ byte ∈ comm, byte ≠ newline ∧ byte ≠ backslash
  untrimmed :
    ((∀ byte ∈ comm.head?, isTrimmed byte = false) ∧
        ∀ byte ∈ comm.getLast?, isTrimmed byte = false) ∨
      ∀ byte ∈ comm, isTrimmed byte = true

/-- The bytes that the kernel writes as two. -/
def isEscaped (byte : UInt8) : Bool :=
  byte = newline || byte = backslash

theorem length_escapeName (comm : ByteString) :
    (escapeName comm).length = comm.length + comm.countP isEscaped := by
  induction comm with
  | nil => rfl
  | cons byte comm induction =>
      have first :
          (escapeByte byte).length = 1 + if isEscaped byte then 1 else 0 := by
        by_cases isNewline : byte = newline
        · rw [isNewline]
          rfl
        by_cases isBackslash : byte = backslash
        · rw [isBackslash]
          rfl
        simp [escapeByte, isEscaped, isNewline, isBackslash]
      rw [escapeName, List.flatMap_cons, ← escapeName, List.length_append,
        induction, first, List.length_cons, List.countP_cons]
      omega

/-- Escaping adds bytes, or there is nothing to escape. -/
theorem escapeName_eq_self_iff {comm : ByteString} :
    escapeName comm = comm ↔
      ∀ byte ∈ comm, byte ≠ newline ∧ byte ≠ backslash := by
  have plain (byte : UInt8) :
      ¬ isEscaped byte = true ↔ byte ≠ newline ∧ byte ≠ backslash := by
    simp [isEscaped]
  constructor
  · intro same
    have lengths := length_escapeName comm
    rw [same] at lengths
    have none_ : comm.countP isEscaped = 0 := by
      omega
    exact fun byte isByte =>
      (plain byte).mp (List.countP_eq_zero.mp none_ byte isByte)
  · intro unescaped
    induction comm with
    | nil => rfl
    | cons byte comm induction =>
        rcases List.forall_mem_cons.mp unescaped with ⟨first, later⟩
        have same : escapeByte byte = [byte] := by
          rw [escapeByte, if_neg first.1, if_neg first.2]
        rw [escapeName, List.flatMap_cons, same]
        exact congrArg (byte :: ·) (induction later)

/-- Neither end of an escaped byte is white space, unless the byte is. -/
theorem escapeByte_ends
    {byte : UInt8} (solid : isTrimmed byte = false) :
    (∀ first ∈ (escapeByte byte).head?, isTrimmed first = false) ∧
      ∀ last ∈ (escapeByte byte).getLast?, isTrimmed last = false := by
  unfold escapeByte
  split_ifs with isNewline isBackslash
  · rw [isNewline] at solid
    cases solid
  · constructor
    · rintro _ ⟨⟩
      rfl
    · rintro _ ⟨⟩
      rfl
  · constructor
    · rintro _ ⟨⟩
      exact solid
    · rintro _ ⟨⟩
      exact solid

theorem escapeByte_ne_nil (byte : UInt8) : escapeByte byte ≠ [] := by
  unfold escapeByte
  split_ifs <;> exact List.cons_ne_nil _ _

theorem escapeName_head
    {comm : ByteString}
    (starts : ∀ byte ∈ comm.head?, isTrimmed byte = false) :
    ∀ byte ∈ (escapeName comm).head?, isTrimmed byte = false := by
  cases comm with
  | nil => exact starts
  | cons byte comm =>
      rw [escapeName, List.flatMap_cons,
        List.head?_append_of_ne_nil _ (escapeByte_ne_nil byte)]
      exact (escapeByte_ends (starts byte rfl)).1

theorem escapeName_last
    {comm : ByteString}
    (ends : ∀ byte ∈ comm.getLast?, isTrimmed byte = false) :
    ∀ byte ∈ (escapeName comm).getLast?, isTrimmed byte = false := by
  rcases List.eq_nil_or_concat comm with rfl | ⟨front, byte, rfl⟩
  · exact ends
  · rw [List.concat_eq_append] at ends ⊢
    rw [List.getLast?_concat] at ends
    rw [escapeName, List.flatMap_append, List.flatMap_singleton,
      List.getLast?_append_of_ne_nil _ (escapeByte_ne_nil byte)]
    exact (escapeByte_ends (ends byte rfl)).2

/-- The line of `status` keeps exactly these names. -/
theorem name_applyStatusLine_nameLine
    {comm : ByteString} {info : ProcessInfo} (isName : info.name = comm) :
    (applyStatusLine info (nameLine comm)).name = comm ↔ Unharmed comm := by
  have isBlank : ∀ byte ∈ ([0x09] : ByteString), isTrimmed byte = true :=
    List.forall_mem_singleton.mpr rfl
  have kept
      (starts : ∀ byte ∈ comm.head?, isTrimmed byte = false)
      (ends : ∀ byte ∈ comm.getLast?, isTrimmed byte = false) :
      trim isTrimmed (0x09 :: escapeName comm) = escapeName comm := by
    have whole :=
      trim_surrounded isBlank (List.forall_mem_nil _)
        (escapeName_head starts) (escapeName_last ends)
    rwa [List.append_nil, List.singleton_append] at whole
  rw [applyStatusLine_nameLine]
  split_ifs with empty
  · -- The value is white space, so that nothing has been escaped.
    refine iff_of_true isName ?_
    have blanks :=
      (List.forall_mem_cons.mp (trim_eq_nil_iff.mp empty)).2
    have unescaped :
        ∀ byte ∈ comm, byte ≠ newline ∧ byte ≠ backslash := by
      intro byte isByte
      have inside (other : UInt8) (isOther : other ∈ escapeByte byte) :=
        blanks other (List.mem_flatMap.mpr ⟨byte, isByte, isOther⟩)
      constructor
      · rintro rfl
        cases inside backslash (by decide)
      · rintro rfl
        cases inside backslash (by decide)
    refine ⟨unescaped, Or.inr ?_⟩
    rwa [escapeName_eq_self_iff.mpr unescaped] at blanks
  · constructor
    · intro same
      have same : trim isTrimmed (0x09 :: escapeName comm) = comm := same
      have starts : ∀ byte ∈ comm.head?, isTrimmed byte = false := by
        rw [← same]
        exact head?_trim
      have ends : ∀ byte ∈ comm.getLast?, isTrimmed byte = false := by
        rw [← same]
        exact getLast?_trim
      rw [kept starts ends] at same
      exact ⟨escapeName_eq_self_iff.mp same, Or.inl ⟨starts, ends⟩⟩
    · rintro ⟨unescaped, ⟨starts, ends⟩ | blanks⟩
      · exact (kept starts ends).trans (escapeName_eq_self_iff.mpr unescaped)
      · rw [escapeName_eq_self_iff.mpr unescaped] at empty
        exact absurd
          (trim_eq_nil_iff.mpr (List.forall_mem_cons.mpr ⟨rfl, blanks⟩)) empty

/-- Nothing behind `parse_status` changes the name. -/
theorem name_completeInfo
    {files : ProcessFiles} {text : ByteString}
    (isStatus : files.status = .ok text) (pid : Int) (info : ProcessInfo) :
    (completeInfo files pid info).name = (parseStatus text info).name := by
  simp only [completeInfo, isStatus]
  split <;> split_ifs <;> rfl

/--
`inspect_process` reports the name of the process exactly if it is without line
breaks and backslashes, and either neither starts nor ends with white space or
is white space throughout.
-/
theorem inspect_reports_name
    {files : ProcessFiles} {pid : Int} (positive : 0 < pid)
    {line : StatLine} (isStat : files.stat = .ok line.text)
    {status : StatusText line.comm}
    (isStatus : files.status = .ok status.text) :
    ∃ info,
      inspectProcess files pid = .ok ⟨some info, []⟩ ∧
        (info.name = line.comm ↔ Unharmed line.comm) := by
  rcases parseStat_reports line files.ticksPerSecond {} with
    ⟨info, parsed, reports⟩
  refine ⟨completeInfo files pid info, ?_, ?_⟩
  · simp only [inspectProcess, if_neg (Int.not_le.mpr positive), isStat,
      parsed]
  · rcases name_parseStatus status info with ⟨earlier, sameName, named⟩
    rw [name_completeInfo isStatus, named]
    exact name_applyStatusLine_nameLine (sameName.trans reports.name)

/-! ## A process with any name -/

theorem decimalField_one : DecimalField [0x31] 1 :=
  .natural (List.cons_ne_nil _ _) (List.forall_mem_singleton.mpr rfl)

theorem decimalFields_one (count : Nat) :
    List.Forall₂ DecimalField (List.replicate count [0x31])
      (List.replicate count 1) := by
  induction count with
  | zero => exact .nil
  | succ count induction => exact .cons decimalField_one induction

theorem one_fits :
    ∀ entry ∈ kernelRanges, ∀ value ∈ (List.replicate 21 (1 : Int))[entry.1]?,
      entry.2.Contains value := by
  decide

theorem newline_isSpace :
    ∀ character ∈ [newline], isSpace character = true :=
  List.forall_mem_singleton.mpr rfl

theorem one_isPid : pidType.Contains 1 := by
  decide

theorem sleeping_isLetter :
    (0x41 : UInt8) ≤ 0x53 ∧ (0x53 : UInt8) ≤ 0x5a ∨
      (0x61 : UInt8) ≤ 0x53 ∧ (0x53 : UInt8) ≤ 0x7a := by
  decide

/-- `1 (comm) S 1 1 ...`. -/
def sampleLine (comm : ByteString) : StatLine where
  pidText := [0x31]
  pid := 1
  comm := comm
  state := 0x53
  fieldTexts := List.replicate 21 [0x31]
  fields := List.replicate 21 1
  trailing := [newline]
  isPid := decimalField_one
  pidFits := one_isPid
  isLetter := sleeping_isLetter
  areFields := decimalFields_one 21
  enough := Nat.le_refl 21
  fit := one_fits
  ends := newline_isSpace

theorem plain_nil : Plain newline [] :=
  List.forall_mem_nil _

theorem otherKeys_nil :
    ∀ line ∈ ([] : List ByteString),
      lineKey line ≠ some (literal "Name") :=
  List.forall_mem_nil _

theorem plain_state : Plain newline [literal "State:\tS (sleeping)"] := by
  intro line isLine
  rw [List.mem_singleton.mp isLine]
  decide

theorem otherKeys_state :
    ∀ line ∈ [literal "State:\tS (sleeping)"],
      lineKey line ≠ some (literal "Name") := by
  decide

def sampleStatus (comm : ByteString) : StatusText comm where
  before := []
  after := [literal "State:\tS (sleeping)"]
  plainBefore := plain_nil
  plainAfter := plain_state
  otherBefore := otherKeys_nil
  otherAfter := otherKeys_state

def sampleFiles (comm : ByteString) : ProcessFiles where
  stat := .ok (sampleLine comm).text
  status := .ok (sampleStatus comm).text
  cmdline := .error 2
  exe := []
  openFds := none
  self := 2
  ticksPerSecond := 100
  strerror _ := []

theorem inspect_reports_name_sample :
    ∃ info,
      inspectProcess (sampleFiles (literal "(sd-pam) x")) 1 =
          .ok ⟨some info, []⟩ ∧
        info.name = literal "(sd-pam) x" := by
  have unescaped :
      (literal "(sd-pam) x").all
        (fun byte => byte ≠ newline && byte ≠ backslash) = true := by
    decide
  have unharmed : Unharmed (literal "(sd-pam) x") := by
    refine ⟨fun byte isByte => ?_, Or.inl ⟨?_, ?_⟩⟩
    · simpa using List.all_eq_true.mp unescaped byte isByte
    · intro byte first
      cases (show some 0x28 = some byte from first)
      rfl
    · intro byte last
      cases (show some 0x78 = some byte from last)
      rfl
  have isStat :
      (sampleFiles (literal "(sd-pam) x")).stat =
        .ok (sampleLine (literal "(sd-pam) x")).text := rfl
  have isStatus :
      (sampleFiles (literal "(sd-pam) x")).status =
        .ok (sampleStatus (literal "(sd-pam) x")).text := rfl
  rcases inspect_reports_name (show (0 : Int) < 1 by decide) isStat
      isStatus with ⟨info, inspected, exactly⟩
  exact ⟨info, inspected, exactly.mpr unharmed⟩

/-- The name that `inspect_process` reports, if it reports one. -/
def reportedName (files : ProcessFiles) (pid : Int) : Option ByteString :=
  match inspectProcess files pid with
  | .ok result => result.info.map ProcessInfo.name
  | .error _ => none

/-- A backslash, a line break and a blank in front, each in a name. -/
theorem name_replaced :
    reportedName (sampleFiles (literal "a\\b")) 1 =
        some (literal "a\\\\b") ∧
      reportedName (sampleFiles (literal "a\nb")) 1 =
        some (literal "a\\nb") ∧
      reportedName (sampleFiles (literal " a")) 1 = some (literal "a") := by
  decide +kernel

end Shell.KernelFormats
