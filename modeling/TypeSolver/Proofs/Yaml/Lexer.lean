import TypeSolver.Proofs.Yaml.Scalar

/-!
# The tokens of a mapping by indentation

What the lexer makes of a document that has one entry a line.  Between two entries it is always in
the same situation: a gap lies before it, and behind the gap a key can start at some column.
`Awaits s rest column blocks tokens` says so, and leaves open how far the lexer has come.

`Reaches count s t` is a run from one state to another.  An entry with a scalar is such a run
between two states that await a key (`reaches_entry`), and so is the line before an indented mapping
(`reaches_section`).  The key of an entry takes two tokens: the word itself is only a candidate, and
the colon behind it puts the token for the key, and the start of a mapping if there is one, before
the word.

What makes some characters a good value is named by `IsWritten`, in terms of the lexer and not of
the style, so that an entry is treated once for plain and quoted scalars.  Whatever a text without
gaps is written as is a good value (`isWritten_writeScalar`).
-/

namespace TypeSolver.Yaml

namespace Lexer

variable {s : Lexer} {limit index line column : Nat} {blocks : List Nat} {allowed : Bool}
  {tokens : List Token} {rest w : List Char}

/-! ## Between tokens -/

/-- Whether the gap between two tokens is over before a text. -/
def EndsGap (rest : List Char) : Prop :=
  ∀ x ∈ rest.head?, isGap x = false ∧ x ≠ '#' ∧ x ≠ byteOrderMark

lemma endsGap_nil : EndsGap [] := by simp [EndsGap]

lemma endsGap_cons {x : Char} (hgap : isGap x = false) (hcomment : x ≠ '#')
    (hbom : x ≠ byteOrderMark) : EndsGap (x :: rest) := by
  rintro _ ⟨rfl⟩
  exact ⟨hgap, hcomment, hbom⟩

lemma endsGap_plain (hw : IsPlain w) : EndsGap (w ++ rest) := by
  obtain ⟨x, tail, rfl, hlead, hbom⟩ := hw.start
  refine endsGap_cons (hw.unbroken x List.mem_cons_self) ?_ hbom
  rintro rfl
  exact (isLeadingMark_eq_false_iff.1 hlead).1 (by decide)

lemma EndsGap.startsGap (h : EndsGap rest) : startsGap rest = false := by
  cases rest with
  | nil => rfl
  | cons x rest => exact (h x rfl).1

lemma skipGap_eq_self (h : EndsGap s.cursor.rest) : s.skipGap limit = s := by
  unfold skipGap
  split
  · rename_i limit x rest hrest
    obtain ⟨hgap, hcomment, hbom⟩ := h x (by rw [hrest]; rfl)
    simp only [isGap, isBlank, Bool.or_eq_false_iff, decide_eq_false_iff_not] at hgap
    simp [hgap, hcomment, hbom]
  · rfl

/-- The indentation of a line is passed over. -/
lemma skipGap_indentation (h : EndsGap rest) {k : Nat} (hlimit : k ≤ limit) :
    skipGap limit ⟨⟨List.replicate k ' ' ++ rest, index, line, column⟩, blocks, allowed, none, [],
        tokens⟩ =
      ⟨⟨rest, index + k, line, column + k⟩, blocks, allowed, none, [], tokens⟩ := by
  induction k generalizing limit index column with
  | zero => exact skipGap_eq_self h
  | succ k ih =>
    obtain ⟨limit, rfl⟩ : ∃ m, limit = m + 1 := ⟨limit - 1, by omega⟩
    have hstep : skipGap (limit + 1) ⟨⟨List.replicate (k + 1) ' ' ++ rest, index, line, column⟩,
        blocks, allowed, none, [], tokens⟩ =
      skipGap limit ⟨⟨List.replicate k ' ' ++ rest, index + 1, line, column + 1⟩, blocks, allowed,
        none, [], tokens⟩ := by
      simp [List.replicate_succ, skipGap, Cursor.skip]
    rw [hstep, ih (Nat.le_of_succ_le_succ hlimit), Nat.add_assoc, Nat.add_assoc, Nat.add_comm 1 k]

/-- Behind the gap here, a key can start at a column. -/
def Awaits (s : Lexer) (rest : List Char) (column : Nat) (blocks : List Nat)
    (tokens : List Token) : Prop :=
  ∃ index line, s.skipGap s.cursor.rest.length =
    ⟨⟨rest, index, line, column⟩, blocks, true, none, [], tokens⟩

lemma awaits_start (h : EndsGap rest) :
    Awaits ⟨⟨rest, index, line, column⟩, blocks, true, none, [], tokens⟩ rest column blocks
      tokens :=
  ⟨index, line, skipGap_eq_self h⟩

lemma awaits_newLine (h : EndsGap rest) (k : Nat) :
    Awaits ⟨⟨'\n' :: (List.replicate k ' ' ++ rest), index, line, column⟩, blocks, allowed, none,
      [], tokens⟩ rest k blocks tokens := by
  refine ⟨index + 1 + k, line + 1, ?_⟩
  have hbreak : isBreak '\n' = true := rfl
  have hbom : '\n' ≠ byteOrderMark := by decide
  have hindent : skipGap (k + rest.length) ⟨⟨List.replicate k ' ' ++ rest, index + 1, line + 1, 0⟩,
      blocks, true, none, [], tokens⟩ =
      ⟨⟨rest, index + 1 + k, line + 1, 0 + k⟩, blocks, true, none, [], tokens⟩ :=
    skipGap_indentation h (Nat.le_add_right k _)
  simpa [skipGap, hbreak, hbom, Cursor.newLine, inFlow] using hindent

/-! ## One token -/

lemma unroll_of_le (houter : s.outer = []) (h : ∀ b ∈ s.blocks, b ≤ s.cursor.column) :
    s.unroll (s.cursor.column + 1) = s := by
  obtain ⟨cursor, blocks, allowed, candidate, outer, tokens⟩ := s
  subst houter
  cases blocks with
  | nil => rfl
  | cons b bs =>
    have hb : ¬ cursor.column + 1 ≤ b := Nat.not_le.2 (Nat.lt_succ_of_le (h b List.mem_cons_self))
    simp [unroll, inFlow, closeBlocks, hb]

/-- A step of the lexer, once the gap is passed. -/
lemma run_next {t : Lexer} {x : Char} (hskip : s.skipGap s.cursor.rest.length = t)
    (hstale : t.dropStale = some t) (houter : t.outer = []) (hrest : t.cursor.rest = x :: rest)
    (hblocks : ∀ b ∈ t.blocks, b ≤ t.cursor.column) :
    run (limit + 1) s = (t.next x rest).bind (run limit) := by
  simp [run, hskip, hstale, unroll_of_le houter hblocks, hrest]

/-- The lexer gets from one state to another in some tokens. -/
def Reaches (count : Nat) (s t : Lexer) : Prop := ∀ limit, run (limit + count) s = run limit t

lemma Reaches.trans {s t u : Lexer} {m n : Nat} (h : Reaches m s t) (h' : Reaches n t u) :
    Reaches (n + m) s u := fun limit => by
  rw [← Nat.add_assoc, h, h']

lemma dropStale_none {cursor : Cursor} :
    dropStale ⟨cursor, blocks, allowed, none, [], tokens⟩ =
      some ⟨cursor, blocks, allowed, none, [], tokens⟩ := rfl

lemma startsPlain_of_isLeadingMark {x : Char} {tail : List Char}
    (hlead : isLeadingMark x tail = false) (hgap : isGap x = false) :
    startsPlain false x (tail ++ rest) = true := by
  obtain ⟨hnot, hword⟩ := isLeadingMark_eq_false_iff.1 hlead
  by_cases hx : x ∈ ['-', '?', ':']
  · have hends : endsWord (tail ++ rest) = false := endsWord_append (hword hx)
    simp only [List.mem_cons, List.not_mem_nil, or_false] at hx
    rcases hx with rfl | rfl | rfl <;> simp [startsPlain, hends]
  · have hindicator : indicators.contains x = false := by
      rw [List.contains_eq_mem, decide_eq_false_iff_not]
      intro hmem
      have hsplit : indicators.all (fun m => m ∈ ['-', '?', ':'] ∨ m ∈ ['#', ',', '[', ']', '\x7b',
        '\x7d', '&', '*', '!', '|', '>', '\'', '"', '%', '@', '`']) = true := by decide
      exact (of_decide_eq_true (List.all_eq_true.1 hsplit x hmem)).elim hx hnot
    simp only [startsPlain, hgap, hindicator, Bool.or_self, Bool.not_false, Bool.true_or]

/-- A plain scalar starts with a character that has no meaning of its own. -/
lemma next_plain {x : Char} {tail : List Char} (hlead : isLeadingMark x tail = false)
    (hgap : isGap x = false) (hmark : s.cursor.isDocumentMark = false) (houter : s.outer = []) :
    s.next x (tail ++ rest) = s.plainScalar := by
  obtain ⟨hnot, hword⟩ := isLeadingMark_eq_false_iff.1 hlead
  have hflow : s.inFlow = false := by rw [inFlow, houter]; rfl
  have hends : ∀ m ∈ ['-', '?', ':'], (decide (x = m) && (s.inFlow || endsWord (tail ++ rest))) =
      false := by
    intro m hm
    by_cases hx : x = m
    · rw [endsWord_append (hword (hx ▸ hm)), hflow, Bool.or_self, Bool.and_false]
    · rw [decide_eq_false hx, Bool.false_and]
  simp only [List.mem_cons, List.not_mem_nil, or_false, not_or] at hnot
  simp only [Cursor.isDocumentMark, Bool.or_eq_false_iff] at hmark
  have hquestion := hends '?' (by decide)
  have hcolon := hends ':' (by decide)
  unfold next
  simp only [hmark, hnot, hquestion, hcolon, decide_false, Bool.false_and, if_false,
    Bool.false_eq_true]
  rw [hflow, startsPlain_of_isLeadingMark hlead hgap]
  rfl

/-! ## Entries of a mapping -/

/-- Whether a key at a column starts a mapping inside those that are open. -/
def startsBlock (column : Nat) : List Nat → Bool
  | [] => true
  | b :: _ => b < column

/-- The columns of the mappings that are open behind a key at a column. -/
def blocksWith (column : Nat) (blocks : List Nat) : List Nat :=
  if startsBlock column blocks then column :: blocks else blocks

/-- The tokens of a key at a column, latest first, on top of those before it. -/
def keyTokens (name : List Char) (column : Nat) (blocks : List Nat) (tokens : List Token) :
    List Token :=
  .value :: .scalar (String.ofList name) .plain :: .key ::
    if startsBlock column blocks then .blockStart :: tokens else tokens

lemma opensBlock_eq (houter : s.outer = []) :
    s.opensBlock column = startsBlock column s.blocks := by
  rw [opensBlock, inFlow, houter]
  cases s.blocks <;> rfl

lemma plainScalar_key (hw : IsIdentifier w) (hrest : endsWord rest = true) :
    plainScalar ⟨⟨w ++ ':' :: rest, index, line, column⟩, blocks, true, none, [], tokens⟩ =
      some ⟨⟨':' :: rest, index + w.length, line, column + w.length⟩, blocks, false,
        some ⟨tokens.length, blocks.head? == some column, index, line, column⟩, [],
        .scalar (String.ofList w) .plain :: tokens⟩ := by
  have hlength : (w ++ ':' :: rest).length = (w.length + rest.length) + 1 := by
    simp [Nat.add_assoc]
  simp only [plainScalar, saveCandidate, dropCandidate, inFlow, hlength, if_true,
    Option.bind_eq_bind, Option.pure_def, Option.bind_some, List.isEmpty_nil, Bool.not_true,
    Bool.not_false, Bool.true_and, plainText_key hw hrest]
  simp [emitScalar, emit]

/-- The colon behind a key puts the token for the key before it. -/
lemma valueMark_key {candidate : Candidate} (hplace : candidate.place = tokens.length) :
    valueMark ⟨⟨':' :: rest, index, line, column⟩, blocks, allowed, some candidate, [],
        .scalar (String.ofList w) .plain :: tokens⟩ =
      some ⟨⟨rest, index + 1, line, column + 1⟩, blocksWith candidate.column blocks, false, none,
        [], keyTokens w candidate.column blocks tokens⟩ := by
  have hcount : tokens.length + 1 - tokens.length = 1 := by omega
  cases hopens : startsBlock candidate.column blocks <;>
    simp [valueMark, opensBlock_eq, hopens, insert, hplace, hcount, emitMark, Cursor.skip,
      blocksWith, keyTokens]

/-- A key becomes the candidate. -/
lemma reaches_keyWord (hw : IsIdentifier w) (hrest : endsWord rest = true)
    (hblocks : ∀ b ∈ blocks, b ≤ column)
    (hskip : s.skipGap s.cursor.rest.length =
      ⟨⟨w ++ ':' :: rest, index, line, column⟩, blocks, true, none, [], tokens⟩) :
    Reaches 1 s ⟨⟨':' :: rest, index + w.length, line, column + w.length⟩,
      blocks, false, some ⟨tokens.length, blocks.head? == some column, index, line, column⟩, [],
      .scalar (String.ofList w) .plain :: tokens⟩ := by
  intro limit
  obtain ⟨x, tail, hstart, hlead, -⟩ := hw.isPlain.start
  have hgap : isGap x = false := hw.isPlain.unbroken x (by simp [hstart])
  have hcons : w ++ ':' :: rest = x :: (tail ++ ':' :: rest) := by rw [hstart, List.cons_append]
  rw [run_next hskip rfl rfl hcons hblocks,
    next_plain hlead hgap (isDocumentMark_identifier hw) rfl, plainScalar_key hw hrest]
  rfl

lemma next_colon (hcursor : s.cursor.rest = ':' :: rest) (hrest : endsWord rest = true) :
    s.next ':' rest = s.valueMark := by
  have hstart : s.cursor.isMark Cursor.startMark = false := by
    simp [Cursor.isMark, hcursor, Cursor.startMark]
  have hend : s.cursor.isMark Cursor.endMark = false := by
    simp [Cursor.isMark, hcursor, Cursor.endMark]
  simp [next, hstart, hend, hrest]

/-- The colon behind a candidate makes it a key, if it is not too far away. -/
lemma reaches_colon {required : Bool} (hrest : endsWord rest = true)
    (hlength : w.length ≤ 1024) (hblocks : ∀ b ∈ blocks, b ≤ column) :
    Reaches 1 ⟨⟨':' :: rest, index + w.length, line, column + w.length⟩, blocks, allowed,
        some ⟨tokens.length, required, index, line, column⟩, [],
        .scalar (String.ofList w) .plain :: tokens⟩
      ⟨⟨rest, index + w.length + 1, line, column + w.length + 1⟩,
        blocksWith column blocks, false, none, [], keyTokens w column blocks tokens⟩ := by
  intro limit
  have hstale : ¬ index + 1024 < index + w.length := by omega
  rw [run_next (skipGap_eq_self (endsGap_cons rfl (by decide) (by decide)))
    (by simp [dropStale, refresh, isStale, hstale]) rfl rfl
    fun b hb => (hblocks b hb).trans (Nat.le_add_right _ _), next_colon rfl hrest,
    valueMark_key rfl]
  rfl

/-- A key of at most 1024 characters, and the colon behind it. -/
lemma reaches_key (h : Awaits s (w ++ ':' :: rest) column blocks tokens) (hw : IsIdentifier w)
    (hlength : w.length ≤ 1024) (hrest : endsWord rest = true)
    (hblocks : ∀ b ∈ blocks, b ≤ column) :
    ∃ index line, Reaches 2 s ⟨⟨rest, index, line, column + w.length + 1⟩,
      blocksWith column blocks, false, none, [], keyTokens w column blocks tokens⟩ := by
  obtain ⟨index, line, hskip⟩ := h
  exact ⟨index + w.length + 1, line,
    (reaches_keyWord hw hrest hblocks hskip).trans (reaches_colon hrest hlength hblocks)⟩

lemma skipGap_space (h : EndsGap rest) :
    skipGap (' ' :: rest).length
        ⟨⟨' ' :: rest, index, line, column⟩, blocks, allowed, none, [], tokens⟩ =
      ⟨⟨rest, index + 1, line, column + 1⟩, blocks, allowed, none, [], tokens⟩ :=
  skipGap_indentation (k := 1) h (by simp)

section Values

variable {block k : Nat}

lemma plainScalar_value (hw : IsPlain w) (hcolumn : 0 < column) (hk : k ≤ block)
    (hrest : EndsGap rest) :
    plainScalar ⟨⟨w ++ '\n' :: (List.replicate k ' ' ++ rest), index, line, column⟩,
        block :: blocks, false, none, [], tokens⟩ =
      some ⟨⟨rest, index + w.length + 1 + k, line + 1, k⟩, block :: blocks, true, none, [],
        .scalar (String.ofList w) .plain :: tokens⟩ := by
  have hlength : (w ++ '\n' :: (List.replicate k ' ' ++ rest)).length =
      (w.length + k + rest.length) + 1 := by simp [Nat.add_assoc]
  simp only [plainScalar, saveCandidate, inFlow, hlength, Bool.false_eq_true, if_false,
    Option.bind_eq_bind, Option.pure_def, Option.bind_some, List.isEmpty_nil, Bool.not_true,
    List.head?_cons, Option.map_some, Option.getD_some,
    plainText_line hw hcolumn (Nat.lt_succ_of_le hk) hrest.startsGap]
  simp [emitScalar, emit]

/-- Some characters are taken for a scalar where they are the value of an entry and end its line, if
the next line is indented no further than the entry. -/
def IsWritten (value : List Char) (text : String) (style : Style) : Prop :=
  ∀ ⦃index line column block k : Nat⦄ ⦃blocks : List Nat⦄ ⦃tokens : List Token⦄
    ⦃rest : List Char⦄, (∀ b ∈ block :: blocks, b ≤ column) → k ≤ block → EndsGap rest →
    ∃ t, Reaches 1 ⟨⟨' ' :: (value ++ '\n' :: (List.replicate k ' ' ++ rest)), index, line, column⟩,
          block :: blocks, false, none, [], tokens⟩ t ∧
      Awaits t rest k (block :: blocks) (.scalar text style :: tokens)

lemma isWritten_plain (hw : IsPlain w) : IsWritten w (String.ofList w) .plain := by
  intro index line column block k blocks tokens rest hblocks hk hrest
  obtain ⟨x, tail, hstart, hlead, -⟩ := hw.start
  have hgap : isGap x = false := hw.unbroken x (by simp [hstart])
  have hcons : w ++ '\n' :: (List.replicate k ' ' ++ rest) =
      x :: (tail ++ '\n' :: (List.replicate k ' ' ++ rest)) := by rw [hstart, List.cons_append]
  have hmark : Cursor.isDocumentMark
      ⟨w ++ '\n' :: (List.replicate k ' ' ++ rest), index + 1, line, column + 1⟩ = false := by
    simp [Cursor.isDocumentMark, Cursor.isMark]
  refine ⟨⟨⟨rest, index + 1 + w.length + 1 + k, line + 1, k⟩, block :: blocks, true, none, [],
    .scalar (String.ofList w) .plain :: tokens⟩, fun limit => ?_, awaits_start hrest⟩
  rw [run_next (skipGap_space (endsGap_plain hw)) rfl rfl hcons
    fun b hb => Nat.le_succ_of_le (hblocks b hb), next_plain hlead hgap hmark rfl,
    plainScalar_value hw (Nat.succ_pos column) hk hrest]
  rfl

lemma quotedScalar_value {style : Style} {quote : Char} {body cs : List Char}
    (hread : ∀ limit index column, cs.length < limit →
      quotedText (style == .doubleQuoted) limit [] ⟨body ++ quote :: rest, index, line, column⟩ =
        some (cs.reverse, ⟨rest, index + body.length + 1, line, column + body.length + 1⟩))
    (hbody : cs.length ≤ body.length) :
    quotedScalar ⟨⟨quote :: (body ++ quote :: rest), index, line, column⟩, blocks, false, none, [],
        tokens⟩ style =
      some ⟨⟨rest, index + body.length + 2, line, column + body.length + 2⟩, blocks, false, none,
        [], .scalar (String.ofList cs) style :: tokens⟩ := by
  have hlimit : cs.length < (quote :: (body ++ quote :: rest)).length := by
    simp
    omega
  have htext := hread _ (index + 1) (column + 1) hlimit
  simp only [quotedScalar, saveCandidate, Bool.false_eq_true, if_false, Option.bind_eq_bind,
    Option.pure_def, Option.bind_some, Cursor.skip, List.drop_one, List.tail_cons, htext]
  simp [emitScalar, emit, Nat.add_assoc, Nat.add_comm 1]

lemma next_single (hcolumn : 0 < s.cursor.column) :
    s.next '\'' rest = s.quotedScalar .singleQuoted := by
  simp [next, Cursor.isMark, hcolumn.ne']

lemma next_double (hcolumn : 0 < s.cursor.column) :
    s.next '"' rest = s.quotedScalar .doubleQuoted := by
  simp [next, Cursor.isMark, hcolumn.ne']

/-- Texts are written between quotes if they are read back from there. -/
lemma isWritten_quoted {style : Style} {quote : Char} {body cs : List Char}
    (hquote : isGap quote = false ∧ quote ≠ '#' ∧ quote ≠ byteOrderMark)
    (hnext : ∀ (s : Lexer) (rest : List Char), 0 < s.cursor.column →
      s.next quote rest = s.quotedScalar style)
    (hread : ∀ limit index line column rest, cs.length < limit →
      quotedText (style == .doubleQuoted) limit []
          ⟨body ++ quote :: '\n' :: rest, index, line, column⟩ =
        some (cs.reverse, ⟨'\n' :: rest, index + body.length + 1, line,
          column + body.length + 1⟩))
    (hbody : cs.length ≤ body.length) :
    IsWritten (quote :: (body ++ [quote])) (String.ofList cs) style := by
  intro index line column block k blocks tokens rest hblocks _ hrest
  have hassoc : quote :: (body ++ [quote]) ++ '\n' :: (List.replicate k ' ' ++ rest) =
      quote :: (body ++ quote :: '\n' :: (List.replicate k ' ' ++ rest)) := by simp
  refine ⟨⟨⟨'\n' :: (List.replicate k ' ' ++ rest), index + 1 + body.length + 2, line,
    column + 1 + body.length + 2⟩, block :: blocks, false, none, [],
    .scalar (String.ofList cs) style :: tokens⟩, fun limit => ?_, awaits_newLine hrest k⟩
  rw [hassoc, run_next (skipGap_space (endsGap_cons hquote.1 hquote.2.1 hquote.2.2)) rfl rfl rfl
    fun b hb => Nat.le_succ_of_le (hblocks b hb), hnext _ _ (Nat.succ_pos column),
    quotedScalar_value (fun limit index column => hread limit index line column _) hbody]
  rfl

/-- A text without gaps is read back from what it is written as, in a style that depends on it. -/
lemma isWritten_writeScalar {text : String} (h : Unbroken text.toList) :
    IsWritten (writeScalar text) text (scalarStyle text) := by
  have hself : String.ofList text.toList = text := String.ofList_toList
  cases hescapes : needsEscapes text.toList with
  | true =>
    have hdouble := isWritten_quoted ⟨rfl, by decide, by decide⟩ (fun _ _ => next_double)
      (fun _ _ _ _ _ => quotedText_double h) (length_le_length_flatMap writeEscaped_ne_nil _)
    simpa [writeScalar, scalarStyle, hescapes, hself] using hdouble
  | false =>
    cases hquotes : needsQuotes text with
    | true =>
      have hsingle := isWritten_quoted ⟨rfl, by decide, by decide⟩ (fun _ _ => next_single)
        (fun _ _ _ _ _ hlimit => quotedText_single h hlimit (by simp))
        (length_le_length_flatMap writeSingle_ne_nil _)
      simpa [writeScalar, scalarStyle, hescapes, hquotes, hself] using hsingle
    | false =>
      have hplain := isWritten_plain (isPlain_of_scalarStyle h hescapes hquotes)
      simpa [writeScalar, scalarStyle, hescapes, hquotes, hself] using hplain

/-- An entry of a mapping: its key, and its value up to the end of the line. -/
lemma reaches_entry {value : List Char} {text : String} {style : Style} {outer : List Nat}
    (h : Awaits s (w ++ ':' :: ' ' :: (value ++ '\n' :: (List.replicate k ' ' ++ rest))) column
      blocks tokens)
    (hw : IsIdentifier w) (hlength : w.length ≤ 1024) (hvalue : IsWritten value text style)
    (hblocks : blocksWith column blocks = column :: outer) (houter : ∀ b ∈ outer, b ≤ column)
    (hk : k ≤ column) (hrest : EndsGap rest) :
    ∃ t, Reaches 3 s t ∧ Awaits t rest k (column :: outer)
      (.scalar text style :: keyTokens w column blocks tokens) := by
  have hopen : ∀ b ∈ column :: outer, b ≤ column := by simpa using houter
  have hbefore : ∀ b ∈ blocks, b ≤ column := by
    intro b hb
    refine hopen b (hblocks ▸ ?_)
    unfold blocksWith
    split
    · exact List.mem_cons_of_mem column hb
    · exact hb
  obtain ⟨index, line, hkey⟩ := reaches_key h hw hlength rfl hbefore
  rw [hblocks] at hkey
  have hbehind : ∀ b ∈ column :: outer, b ≤ column + w.length + 1 :=
    fun b hb => (hopen b hb).trans (by omega)
  obtain ⟨t, hscalar, hnext⟩ := hvalue hbehind hk hrest
  exact ⟨t, hkey.trans hscalar, hnext⟩

/-- An entry whose value is a mapping on the lines below it. -/
lemma reaches_section
    (h : Awaits s (w ++ ':' :: '\n' :: (List.replicate k ' ' ++ rest)) column blocks tokens)
    (hw : IsIdentifier w) (hlength : w.length ≤ 1024) (hblocks : ∀ b ∈ blocks, b ≤ column)
    (hrest : EndsGap rest) :
    ∃ t, Reaches 2 s t ∧
      Awaits t rest k (blocksWith column blocks) (keyTokens w column blocks tokens) := by
  obtain ⟨index, line, hkey⟩ := reaches_key h hw hlength rfl hblocks
  exact ⟨_, hkey, awaits_newLine hrest k⟩

end Values

/-! ## The end of a text -/

lemma closeBlocks_zero (tokens : List Token) (blocks : List Nat) :
    closeBlocks 0 tokens blocks = ([], List.replicate blocks.length .blockEnd ++ tokens) := by
  induction blocks generalizing tokens with
  | nil => rfl
  | cons b bs ih =>
    rw [closeBlocks, if_pos (Nat.zero_le b), ih, List.length_cons, List.replicate_succ',
      List.append_assoc, List.singleton_append]

/-- Whatever is closed before the end of a text, all is closed at its end. -/
lemma closeBlocks_closeBlocks (limit : Nat) (tokens : List Token) (blocks : List Nat) :
    closeBlocks 0 (closeBlocks limit tokens blocks).2 (closeBlocks limit tokens blocks).1 =
      closeBlocks 0 tokens blocks := by
  induction blocks generalizing tokens with
  | nil => rfl
  | cons b bs ih =>
    by_cases hb : limit ≤ b
    · rw [closeBlocks, if_pos hb, ih, closeBlocks, if_pos (Nat.zero_le b)]
    · rw [closeBlocks, if_neg hb]

/-- At the end of a text the mappings that are open end. -/
lemma run_end (h : Awaits s [] column blocks tokens) :
    run (limit + 1) s =
      some (List.replicate blocks.length Token.blockEnd ++ tokens).reverse := by
  obtain ⟨index, line, hskip⟩ := h
  simp only [run, hskip, dropStale_none, Option.bind_eq_bind, Option.bind_some, unroll, inFlow,
    List.isEmpty_nil, Bool.not_true, Bool.false_eq_true, if_false, dropCandidate]
  rw [closeBlocks_closeBlocks, closeBlocks_zero]
  rfl

end Lexer

end TypeSolver.Yaml
