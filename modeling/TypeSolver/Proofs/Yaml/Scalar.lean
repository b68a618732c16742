import TypeSolver.Proofs.Number.Digits
import TypeSolver.Yaml.Printer

/-!
# Written scalars read back

A text is written plain, between single quotes or between double quotes, and each of the three is
read by a function of its own.  This file shows for each that it takes what was written for the text
that was meant, and stops behind it.

## Quoted scalars

Between quotes a text is written character by character.  So the step is one character, whatever
text has been read before it and whatever follows (`quotedText_writeEscaped`,
`quotedText_writeSingle`), and `quotedText_flatMap` is the run.  The texts here are `Unbroken`:
without gaps there is no folding of lines to undo.

## Plain scalars

A plain scalar ends where a gap, a colon or a comment ends it, so what is written plain has to be
free of these; `IsPlain` says so, and `isPlain_of_scalarStyle` that the writer takes care of it.
Two ends occur in a written document: the end of a line before one that is not indented further
(`plainText_line`), and the colon behind a key (`plainText_key`).
-/

namespace TypeSolver.Yaml

/-! ## Digits in base sixteen -/

lemma hexDigit?_toUpper_digitChar : ∀ d < 16, hexDigit? (Nat.digitChar d).toUpper = some d := by
  decide

lemma hexValue?_toDigits (n : Nat) :
    hexValue? ((Nat.toDigits 16 n).map Char.toUpper) = some n := by
  rw [hexValue?, List.foldlM_map]
  exact foldlM_toDigits (by decide) hexDigit?_toUpper_digitChar n

lemma hexValue?_replicate_append (k : Nat) (digits : List Char) :
    hexValue? (List.replicate k '0' ++ digits) = hexValue? digits := by
  induction k with
  | zero => rfl
  | succ k ih =>
    rw [List.replicate_succ, List.cons_append, ← ih]
    rfl

lemma hexValue?_hexDigits (width n : Nat) : hexValue? (hexDigits width n) = some n :=
  (hexValue?_replicate_append _ _).trans (hexValue?_toDigits n)

lemma length_hexDigits {width n : Nat} (hwidth : 0 < width) (hn : n < 16 ^ width) :
    (hexDigits width n).length = width := by
  have hlen := Nat.toDigits_length 16 n width hwidth hn
  simp [hexDigits]
  omega

/-! ## Quoted scalars -/

/-- Whether a word can go through all of these characters. -/
def Unbroken (cs : List Char) : Prop := ∀ c ∈ cs, isGap c = false

/-- What an escape letter was written for is what it stands for. -/
lemma escapedChar?_of_escapeLetter? {c letter : Char} (h : escapeLetter? c = some letter) :
    escapeLength letter = 0 ∧ escapedChar? letter = some c ∧ isBreak letter = false := by
  unfold escapeLetter? at h
  split at h <;> cases h <;> decide

lemma escape?_letter {c letter : Char} (h : escapeLetter? c = some letter) (rest : List Char) :
    escape? (letter :: rest) = some (c, 1) := by
  obtain ⟨hlength, hchar, -⟩ := escapedChar?_of_escapeLetter? h
  simp [escape?, hlength, hchar]

lemma escape?_code {c letter : Char} {width : Nat} (hletter : escapeLength letter = width)
    (hwidth : 0 < width) (hc : c.toNat < 16 ^ width) (rest : List Char) :
    escape? (letter :: (hexDigits width c.toNat ++ rest)) = some (c, width + 1) := by
  have hlen := length_hexDigits hwidth hc
  have htake : (hexDigits width c.toNat ++ rest).take width = hexDigits width c.toNat := by
    rw [List.take_append_of_le_length (by omega), List.take_of_length_le (by omega)]
  have hvalid : c.toNat.isValidChar := c.valid
  simp [escape?, hletter, hwidth.ne', htake, hexValue?_hexDigits, hlen, charOfCode?, hvalid]

/-- Between double quotes a character is written as it is, or by an escape that stands for it. -/
lemma writeEscaped_eq (c : Char) :
    (writeEscaped c = [c] ∧ c ≠ '"' ∧ c ≠ '\\') ∨
      ∃ escape, writeEscaped c = '\\' :: escape ∧ ∀ rest,
        startsBreak (escape ++ rest) = false ∧
          escape? (escape ++ rest) = some (c, escape.length) := by
  -- an escape by code is as long as the letter asks for
  have hcode : ∀ letter width, escapeLength letter = width → 0 < width → c.toNat < 16 ^ width →
      isBreak letter = false → ∀ rest,
      startsBreak (letter :: hexDigits width c.toNat ++ rest) = false ∧
        escape? (letter :: hexDigits width c.toNat ++ rest) =
          some (c, (letter :: hexDigits width c.toNat).length) := by
    intro letter width hletter hwidth hc hbreak rest
    refine ⟨hbreak, ?_⟩
    rw [List.cons_append, escape?_code hletter hwidth hc, List.length_cons,
      length_hexDigits hwidth hc]
  have hmax : c.toNat < 0x110000 := by
    have hvalid : c.toNat.isValidChar := c.valid
    unfold Nat.isValidChar at hvalid
    omega
  unfold writeEscaped
  cases hletter : escapeLetter? c with
  | some letter =>
    refine .inr ⟨[letter], rfl, fun rest => ⟨?_, escape?_letter hletter rest⟩⟩
    exact (escapedChar?_of_escapeLetter? hletter).2.2
  | none =>
    dsimp only
    split
    · refine .inl ⟨rfl, ?_, ?_⟩ <;> rintro rfl <;> cases hletter
    · split
      · exact .inr ⟨_, rfl, hcode 'x' 2 rfl (by decide) (by omega) rfl⟩
      · split
        · exact .inr ⟨_, rfl, hcode 'u' 4 rfl (by decide) (by omega) rfl⟩
        · exact .inr ⟨_, rfl, hcode 'U' 8 rfl (by decide) (by omega) rfl⟩

section Quoted

variable {limit index line column : Nat} {text rest : List Char} {c : Char}

/-- What is written for a character between double quotes is taken for that character. -/
lemma quotedText_writeEscaped (hc : isGap c = false) :
    quotedText true (limit + 1) text ⟨writeEscaped c ++ rest, index, line, column⟩ =
      quotedText true limit (c :: text) ⟨rest, index + (writeEscaped c).length, line,
        column + (writeEscaped c).length⟩ := by
  rcases writeEscaped_eq c with ⟨hself, hquote, hslash⟩ | ⟨escape, hescape, hread⟩
  · simp [hself, quotedText, hc, hquote, hslash, Cursor.skip]
  · obtain ⟨hbreak, hchar⟩ := hread rest
    have hgap : isGap '\\' = false := by decide
    simp [hescape, quotedText, hgap, hbreak, hchar, Cursor.skip]

/-- What is written for a character between single quotes is taken for that character. -/
lemma quotedText_writeSingle (hc : isGap c = false) :
    quotedText false (limit + 1) text ⟨writeSingle c ++ rest, index, line, column⟩ =
      quotedText false limit (c :: text) ⟨rest, index + (writeSingle c).length, line,
        column + (writeSingle c).length⟩ := by
  unfold writeSingle
  split
  · rename_i hquote
    subst hquote
    simp [quotedText, hc, Cursor.skip]
  · rename_i hquote
    simp [quotedText, hc, hquote, Cursor.skip]

/-- A quoted scalar whose characters are written one by one is taken up to its closing quote. -/
lemma quotedText_flatMap {double : Bool} {write : Char → List Char} {cs : List Char}
    (hwrite : ∀ {c : Char} {limit index line column : Nat} {text rest : List Char},
      isGap c = false →
      quotedText double (limit + 1) text ⟨write c ++ rest, index, line, column⟩ =
        quotedText double limit (c :: text)
          ⟨rest, index + (write c).length, line, column + (write c).length⟩)
    (hclose : ∀ {limit index line column : Nat} {text : List Char},
      quotedText double (limit + 1) text ⟨rest, index, line, column⟩ =
        some (text, Cursor.skip ⟨rest, index, line, column⟩ 1))
    (hcs : Unbroken cs) (hlimit : cs.length < limit) :
    quotedText double limit text ⟨cs.flatMap write ++ rest, index, line, column⟩ =
      some (cs.reverse ++ text, Cursor.skip ⟨rest, index + (cs.flatMap write).length, line,
        column + (cs.flatMap write).length⟩ 1) := by
  induction cs generalizing limit text index column with
  | nil =>
    obtain ⟨limit, rfl⟩ := Nat.exists_eq_succ_of_ne_zero (Nat.ne_of_gt hlimit)
    exact hclose
  | cons c cs ih =>
    obtain ⟨limit, rfl⟩ := Nat.exists_eq_succ_of_ne_zero (Nat.ne_of_gt (Nat.zero_lt_of_lt hlimit))
    rw [List.flatMap_cons, List.append_assoc, hwrite (hcs c List.mem_cons_self),
      ih (fun d hd => hcs d (List.mem_cons_of_mem c hd)) (by simpa using hlimit)]
    simp [Nat.add_assoc]

lemma quotedText_double {cs : List Char} (hcs : Unbroken cs) (hlimit : cs.length < limit) :
    quotedText true limit [] ⟨cs.flatMap writeEscaped ++ '"' :: rest, index, line, column⟩ =
      some (cs.reverse, ⟨rest, index + (cs.flatMap writeEscaped).length + 1, line,
        column + (cs.flatMap writeEscaped).length + 1⟩) := by
  have hquote : isGap '"' = false := rfl
  rw [quotedText_flatMap quotedText_writeEscaped (by simp [quotedText, hquote]) hcs hlimit]
  simp [Cursor.skip]

lemma quotedText_single {cs : List Char} (hcs : Unbroken cs) (hlimit : cs.length < limit)
    (hrest : rest.head? ≠ some '\'') :
    quotedText false limit [] ⟨cs.flatMap writeSingle ++ '\'' :: rest, index, line, column⟩ =
      some (cs.reverse, ⟨rest, index + (cs.flatMap writeSingle).length + 1, line,
        column + (cs.flatMap writeSingle).length + 1⟩) := by
  have hquote : isGap '\'' = false := rfl
  rw [quotedText_flatMap quotedText_writeSingle (by simp [quotedText, hquote, hrest]) hcs hlimit]
  simp [Cursor.skip]

end Quoted

/-! ## Plain scalars -/

/-- A text that is taken whole where it stands plain: it is one word, starts with no mark, and has
no colon at its end or before a gap. -/
structure IsPlain (w : List Char) : Prop where
  unbroken : Unbroken w
  start : ∃ c tail, w = c :: tail ∧ isLeadingMark c tail = false ∧ c ≠ byteOrderMark
  within : hasMarkWithin false w = false

lemma isLeadingMark_eq_false_iff {c : Char} {tail : List Char} :
    isLeadingMark c tail = false ↔
      c ∉ ['#', ',', '[', ']', '\x7b', '\x7d', '&', '*', '!', '|', '>', '\'', '"', '%', '@', '`'] ∧
        (c ∈ ['-', '?', ':'] → endsWord tail = false) := by
  have hmarks : "#,[]\x7b\x7d&*!|>'\"%@`".toList =
      ['#', ',', '[', ']', '\x7b', '\x7d', '&', '*', '!', '|', '>', '\'', '"', '%', '@', '`'] := rfl
  have hwords : "-?:".toList = ['-', '?', ':'] := rfl
  rw [isLeadingMark, hmarks, hwords, Bool.or_eq_false_iff, Bool.and_eq_false_imp,
    List.contains_eq_mem, List.contains_eq_mem, decide_eq_false_iff_not, decide_eq_true_iff]

/-- A text of letters, digits and underscores. -/
structure IsIdentifier (w : List Char) : Prop where
  ne_nil : w ≠ []
  chars : ∀ c ∈ w, c.isAlphanum = true ∨ c = '_'

lemma isIdentifier_of_all {w : List Char} (hne : w ≠ [])
    (h : (w.all fun c => c.isAlphanum || c == '_') = true) : IsIdentifier w :=
  ⟨hne, by simpa using h⟩

/-- The characters that mean something to the reader of scalars are not those of identifiers. -/
lemma not_mem_of_identifierChar {c : Char} (h : c.isAlphanum = true ∨ c = '_') :
    c ∉ "-?:,[]\x7b\x7d#&*!|>'\"%@` \t\n\r\x85\u2028\u2029.".toList := by
  have hmarks : ∀ m ∈ "-?:,[]\x7b\x7d#&*!|>'\"%@` \t\n\r\x85\u2028\u2029.".toList,
      ¬ (m.isAlphanum = true ∨ m = '_') := by simp
  exact fun hmem => hmarks c hmem h

lemma isGap_of_identifierChar {c : Char} (h : c.isAlphanum = true ∨ c = '_') : isGap c = false := by
  have hnot := not_mem_of_identifierChar h
  rw [← Bool.not_eq_true]
  intro hgap
  simp [isGap, isBlank, isBreak] at hgap
  rcases hgap with (rfl | rfl) | ((((rfl | rfl) | rfl) | rfl) | rfl) <;> exact hnot (by decide)

lemma hasMarkWithin_of_identifierChars {w : List Char} (h : ∀ c ∈ w, c.isAlphanum = true ∨ c = '_')
    (afterGap : Bool) : hasMarkWithin afterGap w = false := by
  induction w generalizing afterGap with
  | nil => rfl
  | cons c w ih =>
    rw [List.forall_mem_cons] at h
    have hcolon : c ≠ ':' := by
      rintro rfl
      exact not_mem_of_identifierChar h.1 (by decide)
    have hhash : c ≠ '#' := by
      rintro rfl
      exact not_mem_of_identifierChar h.1 (by decide)
    simp [hasMarkWithin, hcolon, hhash, ih h.2]

lemma IsIdentifier.isPlain {w : List Char} (h : IsIdentifier w) : IsPlain w := by
  refine ⟨fun c hc => isGap_of_identifierChar (h.chars c hc), ?_,
    hasMarkWithin_of_identifierChars h.chars false⟩
  obtain ⟨c, tail, rfl⟩ := List.exists_cons_of_ne_nil h.ne_nil
  have hmarks := not_mem_of_identifierChar (h.chars c List.mem_cons_self)
  have hbom : c ≠ byteOrderMark := by
    rintro rfl
    exact absurd (h.chars byteOrderMark List.mem_cons_self) (by decide)
  refine ⟨c, tail, rfl, ?_, hbom⟩
  simp at hmarks
  simp [isLeadingMark, hmarks]

lemma endsWord_append {cs rest : List Char} (h : endsWord cs = false) :
    endsWord (cs ++ rest) = false := by
  cases cs with
  | nil => cases h
  | cons c cs => exact h

/-- A word is taken up to where it ends. -/
lemma plainWord_append {w rest word : List Char} (hw : Unbroken w)
    (hcolon : ∀ pre post, w = pre ++ ':' :: post → endsWord (post ++ rest) = false)
    (hrest : ∀ word, plainWord false word rest = some word) :
    plainWord false word (w ++ rest) = some (w.reverse ++ word) := by
  induction w generalizing word with
  | nil => exact hrest word
  | cons c w ih =>
    have hc : isGap c = false := hw c List.mem_cons_self
    have hnot : (c = ':' && endsWord (w ++ rest)) = false := by
      by_cases heq : c = ':'
      · subst heq
        simpa using hcolon [] w rfl
      · simp [heq]
    rw [List.cons_append, plainWord]
    simp only [hc, hnot, Bool.false_and, Bool.or_false, Bool.false_eq_true, if_false]
    rw [ih (fun d hd => hw d (List.mem_cons_of_mem c hd)) fun pre post hpre =>
      hcolon (c :: pre) post (by rw [hpre, List.cons_append])]
    simp

/-- No colon of such a text ends a word. -/
lemma endsWord_of_hasMarkWithin {afterGap : Bool} {w : List Char}
    (h : hasMarkWithin afterGap w = false) :
    ∀ pre post, w = pre ++ ':' :: post → endsWord post = false := by
  induction w generalizing afterGap with
  | nil => simp
  | cons c w ih =>
    simp only [hasMarkWithin, Bool.or_eq_false_iff] at h
    rintro (_ | ⟨d, pre⟩) post hw
    · obtain ⟨rfl, rfl⟩ := List.cons.inj hw
      simpa using h.1.1
    · exact ih h.2 pre post (List.cons.inj hw).2

section Plain

variable {least limit index line column : Nat} {w rest : List Char}

/-- The indentation of a line belongs to the gap before it. -/
lemma takeGap_indentation {gap : Gap} (hgap : gap.lead.isSome = true) {k : Nat}
    (hrest : startsGap rest = false) (hlimit : k + rest.length ≤ limit) :
    takeGap least limit gap ⟨List.replicate k ' ' ++ rest, index, line, column⟩ =
      some (gap, ⟨rest, index + k, line, column + k⟩) := by
  obtain ⟨lead, hlead⟩ := Option.isSome_iff_exists.1 hgap
  induction k generalizing limit index column with
  | zero =>
    cases rest with
    | nil => simp [takeGap]
    | cons x rest =>
      obtain ⟨limit, rfl⟩ : ∃ m, limit = m + 1 := ⟨limit - 1, by simp at hlimit; omega⟩
      have hx : isBlank x = false ∧ isBreak x = false := by simpa [startsGap, isGap] using hrest
      simp [takeGap, hx]
  | succ k ih =>
    obtain ⟨limit, rfl⟩ : ∃ m, limit = m + 1 := ⟨limit - 1, by omega⟩
    have hspace : isBlank ' ' = true := rfl
    have hstep : takeGap least (limit + 1) gap
        ⟨List.replicate (k + 1) ' ' ++ rest, index, line, column⟩ =
        takeGap least limit gap ⟨List.replicate k ' ' ++ rest, index + 1, line, column + 1⟩ := by
      simp [List.replicate_succ, takeGap, hspace, hlead, Cursor.skip]
    rw [hstep, ih (by omega), Nat.add_assoc, Nat.add_assoc, Nat.add_comm 1 k]

/-- A line break and the indentation of the next line. -/
lemma takeGap_newLine {k : Nat} (hrest : startsGap rest = false)
    (hlimit : k + rest.length + 1 ≤ limit) :
    takeGap least limit .none ⟨'\n' :: (List.replicate k ' ' ++ rest), index, line, column⟩ =
      some (⟨[], some ['\n'], []⟩, ⟨rest, index + 1 + k, line + 1, k⟩) := by
  obtain ⟨limit, rfl⟩ : ∃ m, limit = m + 1 := ⟨limit - 1, by omega⟩
  have hblank : isBlank '\n' = false := rfl
  have hbreak : isBreak '\n' = true := rfl
  have htext : breakText '\n' = '\n' := rfl
  have hindent : takeGap least limit ⟨[], some ['\n'], []⟩
      ⟨List.replicate k ' ' ++ rest, index + 1, line + 1, 0⟩ =
      some (⟨[], some ['\n'], []⟩, ⟨rest, index + 1 + k, line + 1, 0 + k⟩) :=
    takeGap_indentation rfl hrest (Nat.le_of_succ_le_succ hlimit)
  simpa [takeGap, hblank, hbreak, Gap.none, htext, Cursor.newLine] using hindent

/-- The first word of a plain scalar, and whether there can be more. -/
lemma plainText_word (hne : w ≠ []) (hword : plainWord false [] (w ++ rest) = some w.reverse)
    (hmark : Cursor.isDocumentMark ⟨w ++ rest, index, line, column⟩ = false)
    (hcomment : w.head? ≠ some '#') :
    plainText false least (limit + 1) [] .none ⟨w ++ rest, index, line, column⟩ =
      if startsGap rest then
        (takeGap least rest.length .none
            ⟨rest, index + w.length, line, column + w.length⟩).bind fun found =>
          if found.2.column < least then some (w.reverse, found.1.lead.isSome, found.2)
          else plainText false least limit w.reverse found.1 found.2
      else some (w.reverse, false, ⟨rest, index + w.length, line, column + w.length⟩) := by
  rw [plainText, if_neg (by simp [hmark, hcomment, hne])]
  cases hgap : startsGap rest <;>
    simp [hword, hne, Cursor.skip, hgap, Gap.text, Gap.none, Option.bind]

/-- A plain scalar at the end of a line, before a line that does not continue it. -/
lemma plainText_line (hw : IsPlain w) (hcolumn : 0 < column) {k : Nat} (hk : k < least)
    (hrest : startsGap rest = false) :
    plainText false least (limit + 1) [] .none
        ⟨w ++ '\n' :: (List.replicate k ' ' ++ rest), index, line, column⟩ =
      some (w.reverse, true, ⟨rest, index + w.length + 1 + k, line + 1, k⟩) := by
  obtain ⟨x, tail, hstart, hlead, -⟩ := hw.start
  have hmark : Cursor.isDocumentMark
      ⟨w ++ '\n' :: (List.replicate k ' ' ++ rest), index, line, column⟩ = false := by
    simp [Cursor.isDocumentMark, Cursor.isMark, hcolumn.ne']
  have hcomment : w.head? ≠ some '#' := by
    rw [hstart]
    rintro hx
    obtain rfl := Option.some.inj hx
    simp [isLeadingMark] at hlead
  have hword : plainWord false [] (w ++ '\n' :: (List.replicate k ' ' ++ rest)) =
      some w.reverse := by
    rw [plainWord_append hw.unbroken, List.append_nil]
    · exact fun pre post hpre =>
        endsWord_append (endsWord_of_hasMarkWithin hw.within pre post hpre)
    · exact fun word => by simp [plainWord, isGap, isBreak]
  have hlength : ('\n' :: (List.replicate k ' ' ++ rest)).length = k + rest.length + 1 := by simp
  have hbreak : startsGap ('\n' :: (List.replicate k ' ' ++ rest)) = true := rfl
  rw [plainText_word (by simp [hstart]) hword hmark hcomment, if_pos hbreak, hlength,
    takeGap_newLine hrest le_rfl]
  simp [hk]

/-- No document starts or ends with an identifier. -/
lemma isDocumentMark_identifier (hw : IsIdentifier w) :
    Cursor.isDocumentMark ⟨w ++ rest, index, line, column⟩ = false := by
  obtain ⟨x, tail, rfl⟩ := List.exists_cons_of_ne_nil hw.ne_nil
  have hx := not_mem_of_identifierChar (hw.chars x List.mem_cons_self)
  have hdash : '-' ≠ x := by
    rintro rfl
    exact hx (by decide)
  have hdot : '.' ≠ x := by
    rintro rfl
    exact hx (by decide)
  simp [Cursor.isDocumentMark, Cursor.isMark, Cursor.startMark, Cursor.endMark, hdash, hdot]

/-- A plain scalar before a colon that makes it a key. -/
lemma plainText_key (hw : IsIdentifier w) (hrest : endsWord rest = true) :
    plainText false least (limit + 1) [] .none ⟨w ++ ':' :: rest, index, line, column⟩ =
      some (w.reverse, false, ⟨':' :: rest, index + w.length, line, column + w.length⟩) := by
  have hcomment : w.head? ≠ some '#' := by
    intro hhash
    exact not_mem_of_identifierChar (hw.chars '#' (List.mem_of_mem_head? hhash)) (by decide)
  have hword : plainWord false [] (w ++ ':' :: rest) = some w.reverse := by
    rw [plainWord_append hw.isPlain.unbroken, List.append_nil]
    · exact fun pre post hpre =>
        endsWord_append (endsWord_of_hasMarkWithin hw.isPlain.within pre post hpre)
    · exact fun word => by simp [plainWord, hrest]
  have hcolon : startsGap (':' :: rest) = false := rfl
  rw [plainText_word hw.ne_nil hword (isDocumentMark_identifier hw) hcomment, hcolon]
  rfl

end Plain

/-! ## Written scalars -/

/-- The style that a text is written in. -/
def scalarStyle (text : String) : Style :=
  if needsEscapes text.toList then .doubleQuoted
  else if needsQuotes text then .singleQuoted
  else .plain

lemma isAllowed_of_isPrintable {c : Char} (h : isPrintable c = true) : isAllowed c = true := by
  simp only [isPrintable, isAllowed, Bool.or_eq_true, Bool.and_eq_true, decide_eq_true_iff] at h ⊢
  omega

lemma isAllowed_of_isDigit {c : Char} (h : c.isDigit = true) : isAllowed c = true := by
  have hrange := toNat_of_isDigit h
  simp only [isAllowed, Bool.or_eq_true, Bool.and_eq_true, decide_eq_true_iff]
  omega

lemma isAllowed_of_mem_hexDigits {width n : Nat} {c : Char} (hc : c ∈ hexDigits width n) :
    isAllowed c = true := by
  have hdigit : ∀ d < 16, isAllowed (Nat.digitChar d).toUpper = true := by decide
  have hdigits : ∀ n, ∀ c ∈ Nat.toDigits 16 n, isAllowed c.toUpper = true := by
    intro n
    induction n using Nat.strong_induction_on with
    | _ n ih =>
      rw [Nat.toDigits_eq_if (by decide)]
      split
      · rename_i hlt
        simpa using hdigit n hlt
      · rename_i hle
        simpa [or_imp, forall_and] using
          ⟨ih (n / 16) (by omega), hdigit (n % 16) (Nat.mod_lt _ (by decide))⟩
  simp only [hexDigits, List.mem_append, List.mem_replicate, List.mem_map] at hc
  rcases hc with ⟨-, rfl⟩ | ⟨d, hd, rfl⟩
  · rfl
  · exact hdigits n d hd

lemma isAllowed_of_mem_writeEscaped {c x : Char} (hx : x ∈ writeEscaped c) :
    isAllowed x = true := by
  have hescape : ∀ letter digits, isAllowed letter = true → (∀ d ∈ digits, isAllowed d = true) →
      x ∈ '\\' :: letter :: digits → isAllowed x = true := by
    intro letter digits hletter hdigits hmem
    rw [List.mem_cons, List.mem_cons] at hmem
    rcases hmem with rfl | rfl | hmem
    · rfl
    · exact hletter
    · exact hdigits x hmem
  unfold writeEscaped at hx
  cases hletter : escapeLetter? c with
  | some letter =>
    have hallowed : isAllowed letter = true := by
      unfold escapeLetter? at hletter
      split at hletter <;> cases hletter <;> rfl
    rw [hletter] at hx
    exact hescape letter [] hallowed (by simp) hx
  | none =>
    simp only [hletter] at hx
    split at hx
    · rename_i hprintable
      obtain rfl := List.mem_singleton.1 hx
      exact isAllowed_of_isPrintable hprintable
    · split at hx
      · exact hescape 'x' _ rfl (fun d => isAllowed_of_mem_hexDigits) hx
      · split at hx
        · exact hescape 'u' _ rfl (fun d => isAllowed_of_mem_hexDigits) hx
        · exact hescape 'U' _ rfl (fun d => isAllowed_of_mem_hexDigits) hx

lemma isAllowed_of_mem_writeSingle {c x : Char} (hc : isPrintable c = true)
    (hx : x ∈ writeSingle c) : isAllowed x = true := by
  unfold writeSingle at hx
  split at hx
  · simp only [List.mem_cons, List.not_mem_nil, or_false, or_self] at hx
    subst hx
    rfl
  · obtain rfl := List.mem_singleton.1 hx
    exact isAllowed_of_isPrintable hc

/-- All that a scalar is written with may stand in a text. -/
lemma isAllowed_of_mem_writeScalar {text : String} {x : Char} (hx : x ∈ writeScalar text) :
    isAllowed x = true := by
  have hquoted : ∀ quote body, isAllowed quote = true → (∀ d ∈ body, isAllowed d = true) →
      x ∈ quote :: (body ++ [quote]) → isAllowed x = true := by
    intro quote body hquote hbody hmem
    rw [List.mem_cons, List.mem_append, List.mem_singleton] at hmem
    rcases hmem with rfl | hmem | rfl
    · exact hquote
    · exact hbody x hmem
    · exact hquote
  cases hescapes : needsEscapes text.toList with
  | true =>
    simp only [writeScalar, hescapes, if_true] at hx
    refine hquoted '"' _ rfl (fun d hd => ?_) hx
    obtain ⟨c, -, hc⟩ := List.mem_flatMap.1 hd
    exact isAllowed_of_mem_writeEscaped hc
  | false =>
    have hprintable : ∀ c ∈ text.toList, isPrintable c = true := by
      intro c hc
      simp only [needsEscapes, List.any_eq_false, Bool.not_eq_true, Bool.or_eq_false_iff,
        Bool.not_eq_false'] at hescapes
      exact (hescapes c hc).1
    cases hquotes : needsQuotes text with
    | true =>
      simp only [writeScalar, hescapes, hquotes, if_true, Bool.false_eq_true, if_false] at hx
      refine hquoted '\'' _ rfl (fun d hd => ?_) hx
      obtain ⟨c, hc, hwrite⟩ := List.mem_flatMap.1 hd
      exact isAllowed_of_mem_writeSingle (hprintable c hc) hwrite
    | false =>
      simp only [writeScalar, hescapes, hquotes, Bool.false_eq_true, if_false] at hx
      exact isAllowed_of_isPrintable (hprintable x hx)

lemma length_le_length_flatMap {write : Char → List Char} (h : ∀ c, write c ≠ []) (cs : List Char) :
    cs.length ≤ (cs.flatMap write).length := by
  induction cs with
  | nil => simp
  | cons c cs ih =>
    have hc : 0 < (write c).length := List.length_pos_iff.2 (h c)
    rw [List.flatMap_cons, List.length_append, List.length_cons]
    omega

lemma writeSingle_ne_nil (c : Char) : writeSingle c ≠ [] := by
  unfold writeSingle
  split <;> simp

lemma writeEscaped_ne_nil (c : Char) : writeEscaped c ≠ [] := by
  rcases writeEscaped_eq c with ⟨hself, -⟩ | ⟨escape, hescape, -⟩
  · simp [hself]
  · simp [hescape]

/-- What is written plain stands for itself. -/
lemma isPlain_of_scalarStyle {text : String} (h : Unbroken text.toList)
    (hescapes : needsEscapes text.toList = false) (hquotes : needsQuotes text = false) :
    IsPlain text.toList := by
  simp only [needsQuotes, Bool.or_eq_false_iff] at hquotes
  obtain ⟨⟨⟨⟨-, hlead⟩, hwithin⟩, -⟩, -⟩ := hquotes
  refine ⟨h, ?_, hwithin⟩
  cases hcs : text.toList with
  | nil => simp [hcs] at hlead
  | cons c tail =>
    rw [hcs] at hlead hescapes
    refine ⟨c, tail, rfl, hlead, ?_⟩
    rintro rfl
    simp [needsEscapes, isPrintable, byteOrderMark] at hescapes

end TypeSolver.Yaml
