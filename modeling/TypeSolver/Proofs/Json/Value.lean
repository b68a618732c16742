import Mathlib.Data.List.DropRight
import TypeSolver.Proofs.Json.Number

/-!
# Written values read back

The text of a value is read as that value, whatever follows it, if its numbers read back
(`readValue_write`).  Three things make it so.

Strings: the characters of a string are read one by one, each from what is written for it
(`readChars_escapeChar`), and a quote inside is never taken for the end.

Containers: the first item is read like one behind a comma, so arrays and objects are followed by
one induction each (`readItems_writeItems`, `readMembers_writeMembers`).  These are stated for any
reader of the items, one that may fail included: the elements of an array are then read as `mapM`
says, and the members of an object as `foldlM` says.

Limits: a container has fewer items than its text has characters, and what is inside it nests less
deeply than it does.

The last part is about texts that anyone may have written: the numbers of a value that is read are
finite (`numbers_of_readValue`).
-/

namespace TypeSolver.Json

/-! ## Strings -/

/-- A character is written by a letter after a backslash, by its code, or as it is. -/
lemma escapeChar_eq (c : Char) :
    (∃ letter, escapeChar c = ['\\', letter] ∧ letter ≠ 'u' ∧ escaped? letter = some c) ∨
      (c.toNat < 0x20 ∧ escapeChar c =
        ['\\', 'u', '0', '0', Nat.digitChar (c.toNat / 16), Nat.digitChar (c.toNat % 16)]) ∨
      (escapeChar c = [c] ∧ c ≠ '"' ∧ c ≠ '\\' ∧ ¬ c.toNat < 0x20) := by
  by_cases hspecial : c ∈ ['"', '\\', '\x08', '\x0c', '\n', '\r', '\t']
  · simp only [List.mem_cons, List.not_mem_nil, or_false] at hspecial
    rcases hspecial with rfl | rfl | rfl | rfl | rfl | rfl | rfl <;>
      exact .inl ⟨_, rfl, by decide, rfl⟩
  · simp only [List.mem_cons, List.not_mem_nil, or_false, not_or] at hspecial
    obtain ⟨hquote, hslash, hb, hf, hn, hr, ht⟩ := hspecial
    rw [escapeChar, if_neg hquote, if_neg hslash, if_neg hb, if_neg hf, if_neg hn, if_neg hr,
      if_neg ht]
    by_cases hcode : c.toNat < 0x20
    · rw [if_pos hcode]
      exact .inr (.inl ⟨hcode, rfl⟩)
    · rw [if_neg hcode]
      exact .inr (.inr ⟨rfl, hquote, hslash, hcode⟩)

lemma hexQuad?_digitChar : ∀ n < 0x20,
    hexQuad? '0' '0' (Nat.digitChar (n / 16)) (Nat.digitChar (n % 16)) = some n := by
  decide

section ReadChars

variable {done rest : List Char}

lemma readChars_quote :
    readChars done none ('"' :: rest) = .ok (String.ofList done.reverse, rest) := by
  unfold readChars
  rfl

lemma readChars_letter {letter c : Char} (hletter : letter ≠ 'u') (h : escaped? letter = some c) :
    readChars done none ('\\' :: letter :: rest) = readChars (c :: done) none rest := by
  rw [readChars]
  · simp [h]
  · simp [hletter]

lemma readChars_code {a b c d : Char} {u : Nat} (h : hexQuad? a b c d = some u)
    (htrailing : isTrailing u = false) (hleading : isLeading u = false) :
    readChars done none ('\\' :: 'u' :: a :: b :: c :: d :: rest) =
      readChars (Char.ofNat u :: done) none rest := by
  conv => lhs; unfold readChars
  simp [h, htrailing, hleading]

lemma readChars_plain {c : Char} (hquote : c ≠ '"') (hslash : c ≠ '\\') (hcode : ¬ c.toNat < 0x20) :
    readChars done none (c :: rest) = readChars (c :: done) none rest := by
  rw [readChars]
  · simp [hquote, hcode]
  · simp [hslash]
  · simp [hslash]
  · simp [hslash]

/-- What is written for a character is read as that character. -/
lemma readChars_escapeChar (c : Char) :
    readChars done none (escapeChar c ++ rest) = readChars (c :: done) none rest := by
  rcases escapeChar_eq c with ⟨letter, hwrite, hletter, hread⟩ | ⟨hcode, hwrite⟩ |
    ⟨hwrite, hquote, hslash, hcode⟩
  · rw [hwrite]
    exact readChars_letter hletter hread
  · -- a code below the space is no half of a pair
    have htrailing : isTrailing c.toNat = false := by
      simp only [isTrailing, Bool.and_eq_false_iff, decide_eq_false_iff_not]
      omega
    have hleading : isLeading c.toNat = false := by
      simp only [isLeading, Bool.and_eq_false_iff, decide_eq_false_iff_not]
      omega
    have hread := @readChars_code done rest _ _ _ _ _ (hexQuad?_digitChar _ hcode) htrailing
      hleading
    rw [Char.ofNat_toNat] at hread
    rw [hwrite]
    exact hread
  · rw [hwrite]
    exact readChars_plain hquote hslash hcode

lemma readChars_flatMap (cs : List Char) :
    readChars done none (cs.flatMap escapeChar ++ '"' :: rest) =
      .ok (String.ofList (done.reverse ++ cs), rest) := by
  induction cs generalizing done with
  | nil => rw [List.flatMap_nil, List.nil_append, readChars_quote, List.append_nil]
  | cons c cs ih =>
    rw [List.flatMap_cons, List.append_assoc, readChars_escapeChar, ih, List.reverse_cons,
      List.append_assoc, List.singleton_append]

end ReadChars

/-- A string is read back from behind its opening quote on. -/
lemma readChars_writeString (s : String) (rest : List Char) :
    readChars [] none (s.toList.flatMap escapeChar ++ '"' :: rest) = .ok (s, rest) := by
  rw [readChars_flatMap, List.reverse_nil, List.nil_append, String.ofList_toList]

/-! ## Arrays and objects -/

/-- The text of an array behind its opening bracket. -/
def itemsText : List Value → List Char
  | [] => [']']
  | v :: vs => write v ++ writeItems vs

/-- The text of an object behind its opening brace. -/
def membersText : List (String × Value) → List Char
  | [] => ['\x7d']
  | (k, v) :: ms => writeString k ++ ':' :: (write v ++ writeMembers ms)

lemma write_array (vs : List Value) : write (.array vs) = '[' :: itemsText vs := by
  cases vs <;> simp [write, itemsText]

lemma write_object (ms : List (String × Value)) :
    write (.object ms) = '\x7b' :: membersText ms := by
  cases ms <;> simp [write, membersText]

/-- A written value starts with a character that is neither a blank nor a closing bracket. -/
lemma exists_cons_of_write (v : Value) :
    ∃ c cs, write v = c :: cs ∧ isSpace c = false ∧ c ≠ ']' := by
  cases v with
  | null => exact ⟨'n', _, by rw [write]; rfl, rfl, by decide⟩
  | bool b => cases b <;> exact ⟨_, _, by rw [write]; rfl, rfl, by decide⟩
  | number n =>
    obtain ⟨c, cs, hcs, rfl | hc⟩ := exists_cons_of_number n
    · exact ⟨'-', cs, by rw [write, hcs], rfl, by decide⟩
    · refine ⟨c, cs, by rw [write, hcs], not_isSpace_of_isDigit hc, ?_⟩
      rintro rfl
      exact absurd hc (by decide)
  | string s => exact ⟨'"', _, by rw [write]; rfl, rfl, by decide⟩
  | array vs => exact ⟨'[', _, write_array vs, rfl, by decide⟩
  | object ms => exact ⟨'\x7b', _, write_object ms, rfl, by decide⟩

lemma endsNumber_writeItems (vs : List Value) (rest : List Char) :
    EndsNumber (writeItems vs ++ rest) := by
  cases vs with
  | nil => exact endsNumber_cons (by simp) _
  | cons v vs => exact endsNumber_cons (by simp) _

lemma endsNumber_writeMembers (ms : List (String × Value)) (rest : List Char) :
    EndsNumber (writeMembers ms ++ rest) := by
  cases ms with
  | nil => exact endsNumber_cons (by simp) _
  | cons m ms => exact endsNumber_cons (by simp) _

section Containers

variable {α β σ : Type} {limit : Nat} {rest : List Char}

lemma nextItem_first (v : Value) (cs : List Char) :
    nextItem true (write v ++ cs) = .ok (true, write v ++ cs) := by
  obtain ⟨c, ds, hds, hspace, hbracket⟩ := exists_cons_of_write v
  rw [hds, List.cons_append, nextItem, skipSpace_cons hspace]
  simp [hbracket]

lemma nextItem_comma (v : Value) (cs : List Char) :
    nextItem false (',' :: (write v ++ cs)) = .ok (true, write v ++ cs) := by
  obtain ⟨c, ds, hds, hspace, hbracket⟩ := exists_cons_of_write v
  rw [hds, List.cons_append, nextItem, skipSpace_cons rfl]
  simp [skipSpace_cons hspace, hbracket]

lemma nextItem_bracket (first : Bool) (cs : List Char) :
    nextItem first (']' :: cs) = .ok (false, cs) := rfl

/-- The first element is read like one behind a comma. -/
lemma readItems_first (item : List Char → Except Error (β × List Char)) (done : List β)
    (vs : List Value) : readItems item limit true done (itemsText vs ++ rest) =
      readItems item limit false done (writeItems vs ++ rest) := by
  have hnext : nextItem true (itemsText vs ++ rest) = nextItem false (writeItems vs ++ rest) := by
    cases vs with
    | nil => rw [itemsText, writeItems, List.singleton_append, nextItem_bracket, nextItem_bracket]
    | cons v vs =>
      rw [itemsText, writeItems, List.cons_append, List.append_assoc, nextItem_first,
        nextItem_comma]
  cases limit with
  | zero => rfl
  | succ limit => rw [readItems, readItems, hnext]

/-- The elements of an array are read one by one, up to the first that is not what is wanted. -/
lemma readItems_writeItems {item : List Char → Except Error (β × List Char)} {value : α → Value}
    {f : α → Except Error β} {as : List α} {done : List β}
    (hitem : ∀ a ∈ as, ∀ rest, EndsNumber rest →
      item (write (value a) ++ rest) = (f a).map (·, rest))
    (hlimit : as.length < limit) :
    readItems item limit false done (writeItems (as.map value) ++ rest) =
      (as.mapM f).map fun bs => (done.reverse ++ bs, rest) := by
  induction as generalizing limit done with
  | nil =>
    obtain ⟨limit, rfl⟩ := Nat.exists_eq_succ_of_ne_zero hlimit.ne'
    rw [List.map_nil, writeItems, List.singleton_append, readItems, nextItem_bracket, ok_bind,
      List.mapM_nil]
    simp [Except.map, pure, Except.pure]
  | cons a as ih =>
    obtain ⟨limit, rfl⟩ := Nat.exists_eq_succ_of_ne_zero (Nat.ne_zero_of_lt hlimit)
    have hhead := hitem a List.mem_cons_self _ (endsNumber_writeItems (as.map value) rest)
    have htail := fun b => @ih limit (b :: done) (fun a ha => hitem a (List.mem_cons_of_mem _ ha))
      (Nat.lt_of_succ_lt_succ hlimit)
    rw [List.map_cons, writeItems, List.cons_append, List.append_assoc, readItems, nextItem_comma,
      ok_bind, List.mapM_cons]
    dsimp only
    rw [if_pos rfl, hhead]
    cases f a with
    | error e => rfl
    | ok b =>
      rw [Except.map, ok_bind, ok_bind, htail]
      cases as.mapM f <;> simp [Except.map, pure, Except.pure, ok_bind, error_bind]

lemma nextMember_first (k : String) (cs : List Char) :
    nextMember true (writeString k ++ cs) =
      .ok (true, k.toList.flatMap escapeChar ++ '"' :: cs) := by
  rw [writeString, List.cons_append, List.append_assoc]
  rfl

lemma nextMember_comma (k : String) (cs : List Char) :
    nextMember false (',' :: (writeString k ++ cs)) =
      .ok (true, k.toList.flatMap escapeChar ++ '"' :: cs) := by
  rw [writeString, List.cons_append, List.append_assoc]
  rfl

lemma nextMember_brace (first : Bool) (cs : List Char) :
    nextMember first ('\x7d' :: cs) = .ok (false, cs) := rfl

/-- The first member is read like one behind a comma. -/
lemma readMembers_first (member : σ → String → List Char → Except Error (σ × List Char)) (s : σ)
    (ms : List (String × Value)) :
    readMembers (readChars [] none) member limit true s (membersText ms ++ rest) =
      readMembers (readChars [] none) member limit false s (writeMembers ms ++ rest) := by
  have hnext : nextMember true (membersText ms ++ rest) =
      nextMember false (writeMembers ms ++ rest) := by
    cases ms with
    | nil =>
      rw [membersText, writeMembers, List.singleton_append, nextMember_brace, nextMember_brace]
    | cons m ms =>
      rw [membersText, writeMembers, List.cons_append, List.append_assoc, nextMember_first,
        nextMember_comma]
  cases limit with
  | zero => rfl
  | succ limit => rw [readMembers, readMembers, hnext]

/-- The members of an object are read one by one, up to the first that is not what is wanted. -/
lemma readMembers_writeMembers {member : σ → String → List Char → Except Error (σ × List Char)}
    {entry : α → String × Value} {f : σ → α → Except Error σ} {as : List α} {s : σ}
    (hmember : ∀ s, ∀ a ∈ as, ∀ rest, EndsNumber rest →
      member s (entry a).1 (':' :: (write (entry a).2 ++ rest)) = (f s a).map (·, rest))
    (hlimit : as.length < limit) :
    readMembers (readChars [] none) member limit false s (writeMembers (as.map entry) ++ rest) =
      (as.foldlM f s).map (·, rest) := by
  induction as generalizing limit s with
  | nil =>
    obtain ⟨limit, rfl⟩ := Nat.exists_eq_succ_of_ne_zero hlimit.ne'
    rw [List.map_nil, writeMembers, List.singleton_append, readMembers, nextMember_brace, ok_bind,
      List.foldlM_nil]
    rfl
  | cons a as ih =>
    obtain ⟨limit, rfl⟩ := Nat.exists_eq_succ_of_ne_zero (Nat.ne_zero_of_lt hlimit)
    have hhead := hmember s a List.mem_cons_self _ (endsNumber_writeMembers (as.map entry) rest)
    rw [List.map_cons, writeMembers, List.cons_append, List.append_assoc, List.cons_append,
      List.append_assoc, readMembers, nextMember_comma, ok_bind, List.foldlM_cons]
    dsimp only
    rw [if_pos rfl, readChars_writeString, ok_bind]
    dsimp only
    rw [hhead]
    cases f s a with
    | error e => rfl
    | ok s' =>
      rw [Except.map, ok_bind, ok_bind]
      exact ih (fun s a ha => hmember s a (List.mem_cons_of_mem _ ha))
        (Nat.lt_of_succ_lt_succ hlimit)

/-! ### Within the limit -/

lemma length_writeItems_le (vs : List Value) :
    (writeItems vs).length ≤ (write (.array vs)).length := by
  cases vs <;> simp [write_array, itemsText, writeItems]

lemma length_writeMembers_le (ms : List (String × Value)) :
    (writeMembers ms).length ≤ (write (.object ms)).length := by
  cases ms <;> simp [write_object, membersText, writeMembers]

lemma length_lt_write_array (vs : List Value) : vs.length < (write (.array vs)).length := by
  refine Nat.lt_of_lt_of_le ?_ (length_writeItems_le vs)
  induction vs with
  | nil => simp [writeItems]
  | cons v vs ih =>
    simp only [writeItems, List.length_cons, List.length_append]
    omega

lemma length_lt_write_object (ms : List (String × Value)) :
    ms.length < (write (.object ms)).length := by
  refine Nat.lt_of_lt_of_le ?_ (length_writeMembers_le ms)
  induction ms with
  | nil => simp [writeMembers]
  | cons m ms ih =>
    simp only [writeMembers, List.length_cons, List.length_append]
    omega

lemma length_write_le_of_mem_array {v : Value} {vs : List Value} (h : v ∈ vs) :
    (write v).length ≤ (write (.array vs)).length := by
  refine Nat.le_trans ?_ (length_writeItems_le vs)
  induction vs with
  | nil => cases h
  | cons u vs ih =>
    simp only [writeItems, List.length_cons, List.length_append]
    rcases List.mem_cons.1 h with rfl | h
    · omega
    · have := ih h
      omega

lemma length_write_le_of_mem_object {m : String × Value} {ms : List (String × Value)}
    (h : m ∈ ms) : (write m.2).length ≤ (write (.object ms)).length := by
  refine Nat.le_trans ?_ (length_writeMembers_le ms)
  induction ms with
  | nil => cases h
  | cons n ms ih =>
    simp only [writeMembers, List.length_cons, List.length_append]
    rcases List.mem_cons.1 h with rfl | h
    · omega
    · have := ih h
      omega

/-- An array is read behind its opening bracket. -/
lemma readItems_itemsText {item : List Char → Except Error (β × List Char)} {value : α → Value}
    {f : α → Except Error β} {as : List α}
    (hitem : ∀ a ∈ as, ∀ rest, EndsNumber rest →
      item (write (value a) ++ rest) = (f a).map (·, rest))
    (hlimit : (write (.array (as.map value))).length ≤ limit) :
    readItems item limit true [] (itemsText (as.map value) ++ rest) =
      (as.mapM f).map (·, rest) := by
  have hlength := length_lt_write_array (as.map value)
  rw [List.length_map] at hlength
  rw [readItems_first, readItems_writeItems hitem (by omega)]
  rfl

/-- An object is read behind its opening brace. -/
lemma readMembers_membersText {member : σ → String → List Char → Except Error (σ × List Char)}
    {entry : α → String × Value} {f : σ → α → Except Error σ} {as : List α} {s : σ}
    (hmember : ∀ s, ∀ a ∈ as, ∀ rest, EndsNumber rest →
      member s (entry a).1 (':' :: (write (entry a).2 ++ rest)) = (f s a).map (·, rest))
    (hlimit : (write (.object (as.map entry))).length ≤ limit) :
    readMembers (readChars [] none) member limit true s (membersText (as.map entry) ++ rest) =
      (as.foldlM f s).map (·, rest) := by
  have hlength := length_lt_write_object (as.map entry)
  rw [List.length_map] at hlength
  rw [readMembers_first, readMembers_writeMembers hmember (by omega)]

end Containers

/-! ## Values by their first character -/

section FirstCharacter

variable {limit room : Nat} {cs : List Char}

lemma readValue_quote : readValue limit room ('"' :: cs) =
    (readChars [] none cs).bind fun found => .ok (.string found.1, found.2) := by
  unfold readValue
  rfl

lemma readValue_bracket : readValue limit (room + 1) ('[' :: cs) =
    (readItems (readValue limit room) limit true [] cs).bind fun found =>
      .ok (.array found.1, found.2) := by
  conv => lhs; unfold readValue
  rfl

/-- A member of an object whose values are kept as they are read. -/
def readPair (limit room : Nat) (done : List (String × Value)) (name : String) (cs : List Char) :
    Except Error (List (String × Value) × List Char) := do
  let (v, cs) ← afterColon (readValue limit room) cs
  return ((name, v) :: done, cs)

lemma readValue_brace : readValue limit (room + 1) ('\x7b' :: cs) =
    (readMembers (readChars [] none) (readPair limit room) limit true [] cs).bind fun found =>
      .ok (.object found.1.reverse, found.2) := by
  conv => lhs; unfold readValue
  rfl

/-- Blanks before a value count for nothing. -/
lemma readValue_skipSpace : readValue limit room (skipSpace cs) = readValue limit room cs := by
  have hskip : skipSpace (skipSpace cs) = skipSpace cs := List.dropWhile_idempotent isSpace cs
  unfold readValue
  rw [hskip]

lemma isSpace_of_skipSpace {c : Char} {rest : List Char} (h : skipSpace cs = c :: rest) :
    isSpace c = false := by
  have hhead := List.head?_dropWhile_not isSpace cs
  rw [← skipSpace, h] at hhead
  exact hhead

/-- A text that is read has a first character, and if that opens a container there is room for
it. -/
lemma starts_of_readValue {found : Value × List Char} (h : readValue limit room cs = .ok found) :
    ∃ c rest, skipSpace cs = c :: rest ∧ (c = '[' ∨ c = '\x7b' → ∃ inner, room = inner + 1) := by
  rw [← readValue_skipSpace] at h
  cases hcs : skipSpace cs with
  | nil =>
    rw [hcs] at h
    unfold readValue at h
    cases h
  | cons c rest =>
    refine ⟨c, rest, rfl, fun hopens => ?_⟩
    cases room with
    | zero =>
      rw [hcs] at h
      unfold readValue at h
      rcases hopens with rfl | rfl <;> cases h
    | succ inner => exact ⟨inner, rfl⟩

/-- What is read where no container is opened: a word, a string or a number. -/
lemma scalar_of_readValue {c : Char} {v : Value} {rest : List Char} (hc : isSpace c = false)
    (hbracket : c ≠ '[') (hbrace : c ≠ '\x7b')
    (h : readValue limit room (c :: cs) = .ok (v, rest)) :
    v = .null ∨ (∃ b, v = .bool b) ∨ (∃ s, v = .string s) ∨
      ∃ negative digits n, readNumber negative digits = .ok (n, rest) ∧ v = .number n := by
  unfold readValue at h
  rw [skipSpace_cons hc] at h
  simp only [hbracket, hbrace, if_false] at h
  split_ifs at h
  · obtain ⟨_, -, hdone⟩ := bind_eq_ok.1 h
    cases hdone
    exact .inl rfl
  · obtain ⟨_, -, hdone⟩ := bind_eq_ok.1 h
    cases hdone
    exact .inr (.inl ⟨true, rfl⟩)
  · obtain ⟨_, -, hdone⟩ := bind_eq_ok.1 h
    cases hdone
    exact .inr (.inl ⟨false, rfl⟩)
  · obtain ⟨⟨n, _⟩, hread, hdone⟩ := bind_eq_ok.1 h
    cases hdone
    exact .inr (.inr (.inr ⟨_, _, n, hread, rfl⟩))
  · obtain ⟨⟨n, _⟩, hread, hdone⟩ := bind_eq_ok.1 h
    cases hdone
    exact .inr (.inr (.inr ⟨_, _, n, hread, rfl⟩))
  · obtain ⟨⟨s, _⟩, -, hdone⟩ := bind_eq_ok.1 h
    cases hdone
    exact .inr (.inr (.inl ⟨s, rfl⟩))

end FirstCharacter

/-! ## Values -/

/-- Every number in a value satisfies a condition. -/
inductive Value.Numbers (P : Number → Prop) : Value → Prop
  | null : Numbers P .null
  | bool (b : Bool) : Numbers P (.bool b)
  | number {n : Number} (h : P n) : Numbers P (.number n)
  | string (s : String) : Numbers P (.string s)
  | array {vs : List Value} (h : ∀ v ∈ vs, Numbers P v) : Numbers P (.array vs)
  | object {ms : List (String × Value)} (h : ∀ m ∈ ms, Numbers P m.2) : Numbers P (.object ms)

lemma Value.depth_lt_of_mem_array {v : Value} {vs : List Value} (h : v ∈ vs) :
    v.depth < (Value.array vs).depth := by
  rw [Value.depth, Nat.lt_succ_iff]
  induction vs with
  | nil => cases h
  | cons u vs ih =>
    rw [Value.depthList]
    rcases List.mem_cons.1 h with rfl | h
    · exact Nat.le_max_left _ _
    · exact (ih h).trans (Nat.le_max_right _ _)

lemma Value.depth_lt_of_mem_object {m : String × Value} {ms : List (String × Value)}
    (h : m ∈ ms) : m.2.depth < (Value.object ms).depth := by
  rw [Value.depth, Nat.lt_succ_iff]
  induction ms with
  | nil => cases h
  | cons n ms ih =>
    rw [Value.depthMembers]
    rcases List.mem_cons.1 h with rfl | h
    · exact Nat.le_max_left _ _
    · exact (ih h).trans (Nat.le_max_right _ _)

/-- A written value is read back, whatever follows it. -/
lemma readValue_write {v : Value} (h : v.Numbers Number.ReadsBack) {limit room : Nat}
    {rest : List Char} (hroom : v.depth ≤ room) (hlimit : (write v).length ≤ limit)
    (hrest : EndsNumber rest) : readValue limit room (write v ++ rest) = .ok (v, rest) := by
  induction h generalizing room rest with
  | null =>
    rw [write]
    unfold readValue
    rfl
  | bool b =>
    rw [write]
    unfold readValue
    cases b <;> rfl
  | number h =>
    rw [write]
    exact h limit room rest hrest
  | string s =>
    rw [write, writeString, List.cons_append, List.append_assoc, List.singleton_append,
      readValue_quote, readChars_writeString]
    rfl
  | @array vs h ih =>
    obtain ⟨room, rfl⟩ : ∃ r, room = r + 1 := ⟨room - 1, by rw [Value.depth] at hroom; omega⟩
    have hitem : ∀ v ∈ vs, ∀ rest, EndsNumber rest →
        readValue limit room (write (id v) ++ rest) = Except.map (·, rest) (pure (id v)) := by
      intro v hv rest hrest
      have hdepth := Value.depth_lt_of_mem_array hv
      exact ih v hv (by omega) ((length_write_le_of_mem_array hv).trans hlimit) hrest
    have hread := @readItems_itemsText _ _ limit rest _ _ _ _ hitem (by simpa using hlimit)
    rw [List.mapM_pure, List.map_id] at hread
    rw [write_array, List.cons_append, readValue_bracket, hread]
    rfl
  | @object ms h ih =>
    obtain ⟨room, rfl⟩ : ∃ r, room = r + 1 := ⟨room - 1, by rw [Value.depth] at hroom; omega⟩
    have hmember : ∀ done, ∀ m ∈ ms, ∀ rest, EndsNumber rest →
        readPair limit room done (id m).1 (':' :: (write (id m).2 ++ rest)) =
          Except.map (·, rest) (pure (m :: done)) := by
      intro done m hm rest hrest
      have hdepth := Value.depth_lt_of_mem_object hm
      have hvalue : readValue limit room (write m.2 ++ rest) = .ok (m.2, rest) :=
        ih m hm (by omega) ((length_write_le_of_mem_object hm).trans hlimit) hrest
      exact bind_eq_ok.2 ⟨_, hvalue, rfl⟩
    have hread := @readMembers_membersText _ _ limit rest _ _ _ _ [] hmember (by simpa using hlimit)
    rw [List.foldlM_pure, List.map_id, List.foldl_flip_cons_eq_append, List.append_nil] at hread
    rw [write_object, List.cons_append, readValue_brace, hread]
    simp [Except.map, Except.bind, pure, Except.pure]

/-- A list is read back if its elements are, each with one container fewer to open. -/
lemma readList_write {α β : Type} {item : Nat → List Char → Except Error (β × List Char)}
    {value : α → Value} {f : α → Except Error β} {as : List α} {limit room : Nat}
    {rest : List Char}
    (hitem : ∀ a ∈ as, ∀ room rest, (value a).depth ≤ room → EndsNumber rest →
      item room (write (value a) ++ rest) = (f a).map (·, rest))
    (hroom : (Value.array (as.map value)).depth ≤ room)
    (hlimit : (write (.array (as.map value))).length ≤ limit) :
    readList item limit room (write (.array (as.map value)) ++ rest) =
      (as.mapM f).map (·, rest) := by
  obtain ⟨room, rfl⟩ : ∃ r, room = r + 1 := ⟨room - 1, by rw [Value.depth] at hroom; omega⟩
  rw [write_array, List.cons_append]
  refine readItems_itemsText (fun a ha rest hrest => hitem a ha room rest ?_ hrest) hlimit
  have hdepth := Value.depth_lt_of_mem_array (List.mem_map_of_mem (f := value) ha)
  omega

/-! ## Values that are read -/

section Invariants

variable {α κ σ : Type} {limit : Nat} {cs rest : List Char}

lemma forall_of_readItems {P : α → Prop} {item : List Char → Except Error (α × List Char)}
    (hitem : ∀ {cs a rest}, item cs = .ok (a, rest) → P a) {first : Bool} {done as : List α}
    (h : readItems item limit first done cs = .ok (as, rest)) (hdone : ∀ a ∈ done, P a) :
    ∀ a ∈ as, P a := by
  induction limit generalizing first done cs with
  | zero => cases h
  | succ limit ih =>
    rw [readItems] at h
    obtain ⟨⟨more, after⟩, -, h⟩ := bind_eq_ok.1 h
    dsimp only at h
    split at h
    · obtain ⟨⟨a, after⟩, ha, h⟩ := bind_eq_ok.1 h
      exact ih h (List.forall_mem_cons.2 ⟨hitem ha, hdone⟩)
    · cases h
      simpa using hdone

lemma of_readMembers {P : σ → Prop} {name : List Char → Except Error (κ × List Char)}
    {member : σ → κ → List Char → Except Error (σ × List Char)}
    (hmember : ∀ {s k cs s' rest}, P s → member s k cs = .ok (s', rest) → P s') {first : Bool}
    {s s' : σ} (h : readMembers name member limit first s cs = .ok (s', rest)) (hs : P s) :
    P s' := by
  induction limit generalizing first s cs with
  | zero => cases h
  | succ limit ih =>
    rw [readMembers] at h
    obtain ⟨⟨more, after⟩, -, h⟩ := bind_eq_ok.1 h
    dsimp only at h
    split at h
    · obtain ⟨⟨k, after⟩, -, h⟩ := bind_eq_ok.1 h
      obtain ⟨⟨s₁, after⟩, hstep, h⟩ := bind_eq_ok.1 h
      exact ih h (hmember hs hstep)
    · cases h
      exact hs

lemma afterColon_colon (read : List Char → Except Error (α × List Char)) (cs : List Char) :
    afterColon read (':' :: cs) = read cs := rfl

lemma of_afterColon {read : List Char → Except Error (α × List Char)} {found : α × List Char}
    (h : afterColon read cs = .ok found) : ∃ cs', read cs' = .ok found := by
  obtain ⟨cs', -, h⟩ := bind_eq_ok.1 h
  exact ⟨cs', h⟩

end Invariants

/-- The numbers of a value that is read are finite. -/
lemma numbers_of_readValue {limit room : Nat} {cs rest : List Char} {v : Value}
    (h : readValue limit room cs = .ok (v, rest)) :
    v.Numbers fun n => n.toDouble.isFinite = true := by
  induction room using Nat.strong_induction_on generalizing cs rest v with
  | _ room ih =>
    obtain ⟨c, after, hcs, hopens⟩ := starts_of_readValue h
    rw [← readValue_skipSpace, hcs] at h
    by_cases hcontainer : c = '[' ∨ c = '\x7b'
    · obtain ⟨room, rfl⟩ := hopens hcontainer
      have hinner : ∀ {cs v rest}, readValue limit room cs = .ok (v, rest) →
          v.Numbers fun n => n.toDouble.isFinite = true := ih room (Nat.lt_succ_self room)
      rcases hcontainer with rfl | rfl
      · rw [readValue_bracket] at h
        obtain ⟨items, hitems, hdone⟩ := bind_eq_ok.1 h
        cases hdone
        exact .array (forall_of_readItems hinner hitems (by simp))
      · rw [readValue_brace] at h
        obtain ⟨members, hmembers, hdone⟩ := bind_eq_ok.1 h
        cases hdone
        have hnumbers : ∀ m ∈ members.1, m.2.Numbers fun n => n.toDouble.isFinite = true := by
          refine of_readMembers (P := fun done : List (String × Value) => ∀ m ∈ done,
            m.2.Numbers fun n => n.toDouble.isFinite = true) (fun hs hstep => ?_) hmembers (by simp)
          obtain ⟨⟨u, after⟩, hvalue, hdone⟩ := bind_eq_ok.1 hstep
          cases hdone
          obtain ⟨_, hvalue⟩ := of_afterColon hvalue
          exact List.forall_mem_cons.2 ⟨hinner hvalue, hs⟩
        exact .object fun m hm => hnumbers m (List.mem_reverse.1 hm)
    · obtain ⟨hbracket, hbrace⟩ := not_or.1 hcontainer
      rcases scalar_of_readValue (isSpace_of_skipSpace hcs) hbracket hbrace h with
        rfl | ⟨b, rfl⟩ | ⟨s, rfl⟩ | ⟨negative, digits, n, hread, rfl⟩
      · exact .null
      · exact .bool b
      · exact .string s
      · exact .number (isFinite_of_readNumber hread)

end TypeSolver.Json
