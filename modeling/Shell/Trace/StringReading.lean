import Mathlib.Data.Nat.Digits.Defs
import Shell.Trace.Rendering

/-!
# Strings of the tracee

`read_tracee_string` walks through the memory of the tracee word by word and
adds the length of its text to the address of the string.  That is the number
of bytes it has read only as long as each of them has an escape of one
character; behind an escape of two characters it reads other bytes than those
that are next.  The text is the one that the bytes up to the terminating zero
call for exactly if the bytes that are read in their places look like them.
-/

namespace Shell.StringReading

open Shell.Syntax
open Shell.TraceRendering

/-! ## Memory -/

/-- The word of eight bytes, the first one in its lowest place. -/
def packWord (bytes : List UInt8) : UInt64 :=
  UInt64.ofNat (Nat.ofDigits 256 (bytes.map UInt8.toNat))

/-- The memory whose bytes are given, all of it readable. -/
def memoryOf (bytes : UInt64 → UInt8) : Memory :=
  fun address =>
    some
      (packWord
        ((List.range 8).map fun index =>
          bytes (address + UInt64.ofNat index)))

theorem wordBytes_packWord (a b c d e f g h : UInt8) :
    wordBytes (packWord [a, b, c, d, e, f, g, h]) =
      [a, b, c, d, e, f, g, h] := by
  have := a.toNat_lt
  have := b.toNat_lt
  have := c.toNat_lt
  have := d.toNat_lt
  have := e.toNat_lt
  have := f.toNat_lt
  have := g.toNat_lt
  have := h.toNat_lt
  -- Both sides as numbers: a byte is the word divided by a power of 256.
  simp only [wordBytes, packWord, List.range, List.range.loop, List.map_cons,
    List.map_nil, List.cons.injEq, ← UInt8.toNat_inj, Nat.ofDigits_cons,
    Nat.ofDigits_nil, UInt64.toNat_toUInt8, UInt64.toNat_shiftRight,
    UInt64.toNat_ofNat', UInt64.toNat_mul, Nat.shiftRight_eq_div_pow]
  simp only [mul_zero, add_zero, Nat.reducePow, UInt64.reduceToNat,
    Nat.zero_mod, pow_zero, Nat.div_one, Nat.reduceDvd, Nat.mod_mod_of_dvd,
    Nat.add_mul_mod_self_left, UInt8.toNat_mod_size, Nat.one_mod, mul_one,
    Nat.reduceMod, Nat.reduceMul, and_true, true_and]
  omega

/-- The byte at an offset from an address. -/
def byteAt (bytes : UInt64 → UInt8) (address : UInt64) (offset : Nat) :
    UInt8 :=
  bytes (address + UInt64.ofNat offset)

/-- The bytes of the word at an offset. -/
theorem wordBytes_memoryOf
    (bytes : UInt64 → UInt8) (address : UInt64) (offset : Nat) :
    ∃ word,
      memoryOf bytes (address + UInt64.ofNat offset) = some word ∧
        wordBytes word =
          (List.range' offset 8).map (byteAt bytes address) := by
  refine ⟨_, rfl, ?_⟩
  have places (index : Nat) :
      bytes (address + UInt64.ofNat offset + UInt64.ofNat index) =
        byteAt bytes address (offset + index) := by
    rw [byteAt, UInt64.ofNat_add, UInt64.add_assoc]
  simp only [List.range, List.range.loop, List.map_cons, List.map_nil, places,
    wordBytes_packWord]
  rfl

/-! ## What the text has to be -/

section Text

variable (bytes : UInt64 → UInt8) (address : UInt64)

/-- The first bytes from the address on are not zero. -/
def NonzeroBelow (count : Nat) : Prop :=
  ∀ offset < count, byteAt bytes address offset ≠ 0

/-- The escapes of the first bytes. -/
def escaped (count : Nat) : ByteString :=
  (List.range count).flatMap fun offset =>
    escapeByte (byteAt bytes address offset)

/--
The text of the string at the address: the escapes of all bytes before the
first zero if they are shorter than the limit, and otherwise the fewest escapes
that reach it, followed by dots.
-/
inductive Renders (limit : Nat) : ByteString → Prop where
  | whole {count : Nat} (nonzero : NonzeroBelow bytes address count)
      (ends : byteAt bytes address count = 0)
      (short : (escaped bytes address count).length < limit) :
      Renders limit (escaped bytes address count)
  | truncated {count : Nat} (nonzero : NonzeroBelow bytes address count)
      (reached : limit ≤ (escaped bytes address count).length)
      (fewest :
        ∀ fewer < count, (escaped bytes address fewer).length < limit) :
      Renders limit (escaped bytes address count ++ literal "...")

end Text

section Reading

variable {bytes : UInt64 → UInt8} {address : UInt64} {limit : Nat}

theorem escaped_succ (count : Nat) :
    escaped bytes address (count + 1) =
      escaped bytes address count ++
        escapeByte (byteAt bytes address count) := by
  simp [escaped, List.range_succ]

theorem front_of_escaped {count more : Nat} (less : count ≤ more) :
    escaped bytes address count <+: escaped bytes address more := by
  induction less with
  | refl => exact List.prefix_rfl
  | step _ induction =>
      rw [escaped_succ]
      exact induction.trans (List.prefix_append _ _)

/-- A word adds to the text. -/
theorem escaped_longer
    (bytes : UInt64 → UInt8) (address : UInt64) (words : Nat) :
    (escaped bytes address (8 * words)).length <
      (escaped bytes address (8 * words + 8)).length := by
  have firstByte :
      escaped bytes address (8 * words + 1) <+:
        escaped bytes address (8 * words + 8) :=
    front_of_escaped (by omega)
  have added := escapeByte_length_pos (byteAt bytes address (8 * words))
  have atLeast := firstByte.length_le
  rw [escaped_succ, List.length_append] at atLeast
  omega

/-- The bytes that the loops have been through, with their escapes. -/
structure Passed (bytes : UInt64 → UInt8) (address : UInt64) (limit : Nat)
    (count : Nat) : Prop where
  nonzero : NonzeroBelow bytes address count
  fewer : ∀ less < count, (escaped bytes address less).length < limit

theorem Passed.succ
    {count : Nat} (passed : Passed bytes address limit count)
    (short : (escaped bytes address count).length < limit)
    (isNonzero : byteAt bytes address count ≠ 0) :
    Passed bytes address limit (count + 1) := by
  constructor
  · intro offset below
    rcases Nat.lt_succ_iff_lt_or_eq.mp below with earlier | rfl
    · exact passed.nonzero offset earlier
    · exact isNonzero
  · intro less below
    rcases Nat.lt_succ_iff_lt_or_eq.mp below with earlier | rfl
    · exact passed.fewer less earlier
    · exact short

/-- The loop over some bytes ends at a zero, behind them or at the limit. -/
theorem readWord_passed
    {size count : Nat} {next : ByteString} {ended : Bool}
    (passed : Passed bytes address limit count)
    (read :
      readWord limit (escaped bytes address count)
          ((List.range' count size).map (byteAt bytes address)) =
        (next, ended)) :
    ∃ stop,
      Passed bytes address limit stop ∧
        next = escaped bytes address stop ∧
        (ended = true →
          byteAt bytes address stop = 0 ∧ next.length < limit) ∧
        (ended = false → stop = count + size ∨ limit ≤ next.length) := by
  induction size generalizing count with
  | zero =>
      cases read
      refine ⟨count, passed, rfl, ?_, fun _ => Or.inl rfl⟩
      rintro ⟨⟩
  | succ size induction =>
      rw [List.range'_succ, List.map_cons, readWord] at read
      split_ifs at read with short isZero
      · cases read
        refine ⟨count, passed, rfl, fun _ => ⟨isZero, short⟩, ?_⟩
        rintro ⟨⟩
      · rw [← escaped_succ] at read
        rcases induction (passed.succ short isZero) read with
          ⟨stop, stopPassed, isNext, atZero, atEnd⟩
        refine ⟨stop, stopPassed, isNext, atZero, fun notEnded => ?_⟩
        rw [show count + (size + 1) = count + 1 + size by omega]
        exact atEnd notEnded
      · cases read
        refine ⟨count, passed, rfl, ?_, fun _ => Or.inr (by omega)⟩
        rintro ⟨⟩

theorem Passed.of_succ
    {count : Nat} (passed : Passed bytes address limit (count + 1)) :
    Passed bytes address limit count ∧
      (escaped bytes address count).length < limit ∧
      byteAt bytes address count ≠ 0 := by
  refine ⟨⟨?_, ?_⟩, passed.fewer count (Nat.lt_succ_self count),
    passed.nonzero count (Nat.lt_succ_self count)⟩
  · exact fun offset below => passed.nonzero offset (Nat.lt_succ_of_lt below)
  · exact fun less below => passed.fewer less (Nat.lt_succ_of_lt below)

/-- What is known inside a word is known at its front. -/
theorem Passed.atWord
    {words index : Nat}
    (passed : Passed bytes address limit (8 * words + index))
    (short : (escaped bytes address (8 * words + index)).length < limit) :
    Passed bytes address limit (8 * words) ∧
      (escaped bytes address (8 * words)).length < limit := by
  induction index with
  | zero => exact ⟨passed, short⟩
  | succ index induction =>
      exact induction passed.of_succ.1 passed.of_succ.2.1

/-! ## The bytes that are read -/

/-- A byte that is read in the place of another one and looks like it. -/
def Alike (read meant : UInt8) : Prop :=
  (read = 0 ↔ meant = 0) ∧ escapeByte read = escapeByte meant

/--
Whenever the loops come to a byte, the one that is read in its place looks like
it.  The word is read at the length of the text, the byte in the word at its
own place.
-/
def ReadsAlike (bytes : UInt64 → UInt8) (address : UInt64) (limit : Nat) :
    Prop :=
  ∀ words, ∀ index < 8, Passed bytes address limit (8 * words + index) →
    (escaped bytes address (8 * words + index)).length < limit →
      Alike
        (byteAt bytes address
          ((escaped bytes address (8 * words)).length + index))
        (byteAt bytes address (8 * words + index))

/-- Without escapes of two characters in the words before the last one, the
bytes are read in their own places. -/
theorem readsAlike_of_single
    (single :
      ∀ words, Passed bytes address limit (8 * words) →
        (escaped bytes address (8 * words)).length < limit →
          (escaped bytes address (8 * words)).length = 8 * words) :
    ReadsAlike bytes address limit := by
  intro words index _ passed short
  have atWord := passed.atWord short
  rw [single words atWord.1 atWord.2]
  exact ⟨Iff.rfl, rfl⟩

/-- The bytes of memory from an offset on. -/
def bytesFrom (bytes : UInt64 → UInt8) (address : UInt64)
    (offset size : Nat) : List UInt8 :=
  (List.range' offset size).map (byteAt bytes address)

/-- What becomes of the text when a word has been read. -/
def afterWord (bytes : UInt64 → UInt8) (address : UInt64) (limit rounds : Nat) :
    ByteString × Bool → ByteString
  | (value, true) => value
  | (value, false) => readWords (memoryOf bytes) address limit rounds value

theorem readWords_short
    {value : ByteString} (short : value.length < limit) (rounds : Nat) :
    readWords (memoryOf bytes) address limit (rounds + 1) value =
      afterWord bytes address limit rounds
        (readWord limit value (bytesFrom bytes address value.length 8)) := by
  rcases wordBytes_memoryOf bytes address value.length with
    ⟨word, isWord, chunk⟩
  rw [readWords, if_pos short, isWord]
  simp only [chunk]
  rfl

theorem readWords_of_reached
    {value : ByteString} (reached : limit ≤ value.length) (memory : Memory)
    (rounds : Nat) :
    readWords memory address limit rounds value =
      value ++ literal "..." := by
  cases rounds with
  | zero => rfl
  | succ rounds => rw [readWords, if_neg (Nat.not_lt.mpr reached)]

/-! ## From bytes that look alike to the text -/

theorem readWord_alike
    (alike : ReadsAlike bytes address limit) (words index size : Nat)
    (whole : index + size = 8)
    (passed : Passed bytes address limit (8 * words + index)) :
    readWord limit (escaped bytes address (8 * words + index))
        (bytesFrom bytes address
          ((escaped bytes address (8 * words)).length + index) size) =
      readWord limit (escaped bytes address (8 * words + index))
        (bytesFrom bytes address (8 * words + index) size) := by
  induction size generalizing index with
  | zero => rfl
  | succ size induction =>
      simp only [bytesFrom, List.range'_succ, List.map_cons, readWord]
      split_ifs with short readZero meantZero meantZero
      · rfl
      · exact absurd
          ((alike words index (by omega) passed short).1.mp readZero) meantZero
      · exact absurd
          ((alike words index (by omega) passed short).1.mpr meantZero)
          readZero
      · rw [(alike words index (by omega) passed short).2, ← escaped_succ]
        exact induction (index + 1) (by omega) (passed.succ short meantZero)
      · rfl

/-- The loop over the words, from a boundary between two words on. -/
theorem readWords_renders
    (alike : ReadsAlike bytes address limit) {rounds words : Nat}
    (passed : Passed bytes address limit (8 * words))
    (enough :
      limit ≤ rounds + (escaped bytes address (8 * words)).length) :
    Renders bytes address limit
      (readWords (memoryOf bytes) address limit rounds
        (escaped bytes address (8 * words))) := by
  induction rounds generalizing words with
  | zero =>
      rw [readWords]
      exact .truncated passed.nonzero (by omega) passed.fewer
  | succ rounds induction =>
      by_cases short : (escaped bytes address (8 * words)).length < limit
      · have sameWord := readWord_alike alike words 0 8 rfl passed
        rw [readWords_short short]
        simp only [Nat.add_zero] at sameWord
        rw [sameWord]
        generalize read :
          readWord limit (escaped bytes address (8 * words))
            (bytesFrom bytes address (8 * words) 8) = result
        rcases result with ⟨next, ended⟩
        rcases readWord_passed passed read with
          ⟨stop, stopPassed, rfl, atZero, atEnd⟩
        cases ended with
        | true =>
            exact .whole stopPassed.nonzero (atZero rfl).1 (atZero rfl).2
        | false =>
            rcases atEnd rfl with rfl | reached
            · have longer := escaped_longer bytes address words
              rw [← Nat.mul_succ] at stopPassed longer ⊢
              exact induction stopPassed (by omega)
            · rw [afterWord, readWords_of_reached reached]
              exact .truncated stopPassed.nonzero reached stopPassed.fewer
      · rw [readWords_of_reached (Nat.le_of_not_lt short)]
        exact .truncated passed.nonzero (Nat.le_of_not_lt short) passed.fewer

/-! ## From the text to bytes that look alike -/

/-- The first byte says how long an escape is. -/
theorem escapeByte_cases (byte : UInt8) :
    (∃ character, escapeByte byte = [character] ∧ character ≠ 0x5c) ∨
      ∃ character, escapeByte byte = [0x5c, character] := by
  unfold escapeByte
  split_ifs with _ _ _ _ isBackslash
  · exact Or.inr ⟨_, rfl⟩
  · exact Or.inr ⟨_, rfl⟩
  · exact Or.inr ⟨_, rfl⟩
  · exact Or.inr ⟨_, rfl⟩
  · exact Or.inr ⟨_, rfl⟩
  · exact Or.inl ⟨byte, rfl, isBackslash⟩
  · exact Or.inl ⟨0x3f, rfl, by decide⟩

theorem escapeByte_unique
    {byte other : UInt8} {rest otherRest : ByteString}
    (same : escapeByte byte ++ rest = escapeByte other ++ otherRest) :
    escapeByte byte = escapeByte other := by
  rcases escapeByte_cases byte with
    ⟨character, isOne, plain⟩ | ⟨character, isTwo⟩ <;>
  rcases escapeByte_cases other with
    ⟨otherCharacter, isOtherOne, otherPlain⟩ | ⟨otherCharacter, isOtherTwo⟩
  · rw [isOne, isOtherOne] at same ⊢
    rw [(List.cons.inj same).1]
  · rw [isOne, isOtherTwo] at same
    exact absurd (List.cons.inj same).1 plain
  · rw [isTwo, isOtherOne] at same
    exact absurd (List.cons.inj same).1.symm otherPlain
  · rw [isTwo, isOtherTwo] at same ⊢
    rw [(List.cons.inj (List.cons.inj same).2).1]

/-- The text ends where the string does. -/
theorem Renders.eq_escaped
    {text : ByteString} (rendered : Renders bytes address limit text)
    {count : Nat} (passed : Passed bytes address limit count)
    (short : (escaped bytes address count).length < limit)
    (ends : byteAt bytes address count = 0) :
    text = escaped bytes address count := by
  cases rendered with
  | @whole other nonzero otherEnds _ =>
      have same : other = count := by
        rcases Nat.lt_trichotomy other count with before | same | behind
        · exact absurd otherEnds (passed.nonzero other before)
        · exact same
        · exact absurd ends (nonzero count behind)
      rw [same]
  | @truncated other nonzero reached _ =>
      rcases Nat.lt_trichotomy other count with before | rfl | behind
      · exact absurd reached (Nat.not_le.mpr (passed.fewer other before))
      · exact absurd reached (Nat.not_le.mpr short)
      · exact absurd ends (nonzero count behind)

/-- The text has the escape of every byte that the string has before the
limit. -/
theorem Renders.prefix_escaped
    {text : ByteString} (rendered : Renders bytes address limit text)
    {count : Nat} (passed : Passed bytes address limit count)
    (short : (escaped bytes address count).length < limit)
    (goesOn : byteAt bytes address count ≠ 0) :
    escaped bytes address (count + 1) <+: text := by
  cases rendered with
  | @whole other nonzero ends _ =>
      apply front_of_escaped
      rcases Nat.lt_trichotomy other count with before | rfl | behind
      · exact absurd ends (passed.nonzero other before)
      · exact absurd ends goesOn
      · exact behind
  | @truncated other nonzero reached _ =>
      refine (front_of_escaped ?_).trans (List.prefix_append _ _)
      rcases Nat.lt_trichotomy other count with before | rfl | behind
      · exact absurd reached (Nat.not_le.mpr (passed.fewer other before))
      · exact absurd reached (Nat.not_le.mpr short)
      · exact behind

theorem prefix_readWord (limit : Nat) (value : ByteString)
    (chunk : List UInt8) : value <+: (readWord limit value chunk).1 := by
  induction chunk generalizing value with
  | nil => exact List.prefix_rfl
  | cons byte chunk induction =>
      rw [readWord]
      split_ifs
      · exact List.prefix_rfl
      · exact (List.prefix_append _ _).trans (induction _)
      · exact List.prefix_rfl

/-- The loops only add to the text. -/
theorem prefix_afterWord
    (limit rounds : Nat) (value : ByteString) (chunk : List UInt8) :
    value <+:
      afterWord bytes address limit rounds (readWord limit value chunk) := by
  induction rounds generalizing value chunk with
  | zero =>
      have inWord := prefix_readWord limit value chunk
      generalize readWord limit value chunk = result at inWord
      rcases result with ⟨next, _ | _⟩
      · exact inWord.trans (List.prefix_append _ _)
      · exact inWord
  | succ rounds induction =>
      have inWord := prefix_readWord limit value chunk
      generalize readWord limit value chunk = result at inWord
      rcases result with ⟨next, _ | _⟩
      · refine inWord.trans ?_
        rw [afterWord]
        by_cases short : next.length < limit
        · rw [readWords_short short]
          exact induction next _
        · rw [readWords_of_reached (Nat.le_of_not_lt short)]
          exact List.prefix_append _ _
      · exact inWord

/-- If the text is right, the next byte that is read looks like the one that
is next. -/
theorem alike_of_renders
    {count rounds : Nat} {read : UInt8} {chunk : List UInt8}
    (rendered :
      Renders bytes address limit
        (afterWord bytes address limit rounds
          (readWord limit (escaped bytes address count) (read :: chunk))))
    (passed : Passed bytes address limit count)
    (short : (escaped bytes address count).length < limit) :
    Alike read (byteAt bytes address count) := by
  rw [readWord, if_pos short] at rendered
  by_cases readZero : read = 0 <;>
    by_cases meantZero : byteAt bytes address count = 0
  · rw [readZero, meantZero]
    exact ⟨Iff.rfl, rfl⟩
  · rw [if_pos readZero] at rendered
    have longer :=
      (rendered.prefix_escaped passed short meantZero).length_le
    have added := escapeByte_length_pos (byteAt bytes address count)
    rw [escaped_succ, List.length_append, afterWord] at longer
    omega
  · rw [if_neg readZero] at rendered
    have continues :
        escaped bytes address count ++ escapeByte read <+:
          afterWord bytes address limit rounds _ :=
      prefix_afterWord limit rounds _ chunk
    have longer := continues.length_le
    have added := escapeByte_length_pos read
    rw [rendered.eq_escaped passed short meantZero, List.length_append]
      at longer
    omega
  · rw [if_neg readZero] at rendered
    have meant := rendered.prefix_escaped passed short meantZero
    have isRead :
        escaped bytes address count ++ escapeByte read <+:
          afterWord bytes address limit rounds _ :=
      prefix_afterWord limit rounds _ chunk
    refine ⟨iff_of_false readZero meantZero, ?_⟩
    rw [escaped_succ] at meant
    rcases isRead with ⟨rest, isRead⟩
    rcases meant with ⟨otherRest, meant⟩
    rw [← meant, List.append_assoc, List.append_assoc] at isRead
    exact escapeByte_unique (List.append_cancel_left isRead)

/-- Inside a word the text grows as it has to, if it is right in the end. -/
theorem readWord_of_renders
    {words rounds index : Nat} (inside : index ≤ 8)
    (rendered :
      Renders bytes address limit
        (afterWord bytes address limit rounds
          (readWord limit (escaped bytes address (8 * words))
            (bytesFrom bytes address
              (escaped bytes address (8 * words)).length 8))))
    (passed : Passed bytes address limit (8 * words + index)) :
    readWord limit (escaped bytes address (8 * words))
        (bytesFrom bytes address
          (escaped bytes address (8 * words)).length 8) =
      readWord limit (escaped bytes address (8 * words + index))
        (bytesFrom bytes address
          ((escaped bytes address (8 * words)).length + index)
          (8 - index)) := by
  induction index with
  | zero => rfl
  | succ index induction =>
      have isNext : Passed bytes address limit (8 * words + index + 1) := passed
      rcases isNext.of_succ with ⟨earlier, short, goesOn⟩
      have same := induction (Nat.le_of_succ_le inside) earlier
      have left : 8 - index = 8 - (index + 1) + 1 := by omega
      rw [same]
      rw [same, bytesFrom, left, List.range'_succ, List.map_cons] at rendered
      have alike := alike_of_renders rendered earlier short
      have readOn := mt alike.1.mp goesOn
      rw [bytesFrom, left, List.range'_succ, List.map_cons, readWord,
        if_pos short, if_neg readOn, alike.2, ← escaped_succ]
      rfl

/-- At every boundary between words that the string goes beyond, the text is
what it has to be, if it is right in the end. -/
theorem readWords_of_renders
    {text : ByteString} (rendered : Renders bytes address limit text)
    (isText : text = readWords (memoryOf bytes) address limit limit [])
    (words : Nat) (passed : Passed bytes address limit (8 * words))
    (short : (escaped bytes address (8 * words)).length < limit) :
    ∃ rounds,
      text =
          afterWord bytes address limit rounds
            (readWord limit (escaped bytes address (8 * words))
              (bytesFrom bytes address
                (escaped bytes address (8 * words)).length 8)) ∧
        limit ≤ rounds + 1 + (escaped bytes address (8 * words)).length := by
  induction words with
  | zero =>
      rcases limit with _ | rounds
      · cases short
      · refine ⟨rounds, ?_, Nat.le_add_right _ _⟩
        rw [isText]
        exact readWords_short short rounds
  | succ words induction =>
      have earlier : Passed bytes address limit (8 * words) :=
        ⟨fun offset below => passed.nonzero offset (by omega),
          fun less below => passed.fewer less (by omega)⟩
      rcases induction earlier (passed.fewer _ (by omega)) with
        ⟨rounds, isAfter, enough⟩
      rw [isAfter] at rendered
      have wholeWord := readWord_of_renders (Nat.le_refl 8) rendered passed
      have longer := escaped_longer bytes address words
      have isNext : 8 * words + 8 = 8 * (words + 1) := rfl
      rw [isNext] at longer wholeWord
      rcases rounds with _ | rounds
      · omega
      · refine ⟨rounds, ?_, by omega⟩
        rw [isAfter, wholeWord]
        exact readWords_short short rounds

/--
`read_tracee_string` returns the text of the string at the address exactly if
every byte that it reads looks like the one in whose place it is read.
-/
theorem tracee_string_rendered
    (bytes : UInt64 → UInt8) {address : UInt64} (notNull : address ≠ 0)
    (limit : Nat) :
    Renders bytes address limit
        (readTraceeString (memoryOf bytes) address limit) ↔
      ReadsAlike bytes address limit := by
  rw [readTraceeString, if_neg notNull]
  constructor
  · intro rendered words index inside passed short
    have atWord := passed.atWord short
    rcases readWords_of_renders rendered rfl words atWord.1 atWord.2 with
      ⟨rounds, isAfter, -⟩
    rw [isAfter] at rendered
    have inWord := readWord_of_renders (Nat.le_of_lt inside) rendered passed
    have left : 8 - index = 8 - (index + 1) + 1 := by omega
    rw [inWord, bytesFrom, left, List.range'_succ, List.map_cons] at rendered
    exact alike_of_renders rendered passed short
  · intro alike
    have start : Passed bytes address limit (8 * 0) := ⟨nofun, nofun⟩
    exact readWords_renders alike start (Nat.le_add_right _ _)

end Reading

/-- The memory that holds a text from address 4096 on and is zero elsewhere. -/
def textAt (text : ByteString) (address : UInt64) : UInt8 :=
  text.getD (address.toNat - 4096) 0

theorem tracee_string_rendered_sample :
    Renders (textAt (literal "/tmp/new\nname")) 4096 160
      (readTraceeString (memoryOf (textAt (literal "/tmp/new\nname"))) 4096
        160) := by
  apply (tracee_string_rendered _ (by decide) _).mpr
  apply readsAlike_of_single
  intro words passed _
  have ends : byteAt (textAt (literal "/tmp/new\nname")) 4096 13 = 0 := by
    decide +kernel
  have beforeEnd : ¬ 13 < 8 * words := by
    intro beyond
    exact passed.nonzero 13 beyond ends
  -- The first word has no escape, and the second one is the last.
  have atMostOne : words = 0 ∨ words = 1 := by omega
  rcases atMostOne with rfl | rfl <;> decide +kernel

/-- A newline in the first word, and a zero right behind that word. -/
def escapedName : UInt64 → UInt8 :=
  textAt (literal "\nabcdefg\x00xyz")

/-- The newline makes the text longer than the word, the second read skips the
zero, and the bytes behind it are rendered. -/
theorem bytes_after_nul_rendered :
    readTraceeString (memoryOf escapedName) 4096 160 =
        literal "\\nabcdefgxyz" ∧
      ¬ Renders escapedName 4096 160 (literal "\\nabcdefgxyz") := by
  refine ⟨by decide +kernel, ?_⟩
  have ends : byteAt escapedName 4096 8 = 0 := by decide +kernel
  have beforeEnd {count : Nat} (nonzero : NonzeroBelow escapedName 4096 count) :
      count ≤ 8 := by
    by_contra beyond
    exact nonzero 8 (Nat.lt_of_not_le beyond) ends
  intro rendered
  generalize isText : literal "\\nabcdefgxyz" = text at rendered
  cases rendered with
  | @whole count nonzero _ _ =>
      have differs :
          ∀ count ≤ 8,
            literal "\\nabcdefgxyz" ≠ escaped escapedName 4096 count := by
        decide +kernel
      exact differs count (beforeEnd nonzero) isText
  | @truncated count nonzero reached _ =>
      have short :
          ∀ count ≤ 8, (escaped escapedName 4096 count).length < 160 := by
        decide +kernel
      exact absurd reached (Nat.not_le.mpr (short count (beforeEnd nonzero)))

end Shell.StringReading
