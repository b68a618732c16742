import Mathlib.Data.List.TakeWhile
import TypeSolver.Json.Printer
import TypeSolver.Json.Reader
import TypeSolver.Proofs.Number.Digits
import TypeSolver.Proofs.Number.Rounding
import TypeSolver.Proofs.Outcome

/-!
# Numbers in a JSON text

A number has no closing mark: it goes on as long as the characters do.  So that a number is read
alone and in the middle of a text as the same, what follows must not continue it (`EndsNumber`); the
marks behind the items of arrays and objects do not.  Each stage of reading then passes over what
follows (`readNumber_append`).

A double is written with a point or an exponent, so it is never read as an integer
(`exists_mark_of_double`).  Whether it is read as the same double is a matter of rounding and is
tested for each one (`readsBack`); if so, it is read back wherever it stands
(`Number.readsBack_double`).  Counts of less than 64 bits are read back always
(`readNumber_toDigits`).

Whatever number is read, it is finite (`isFinite_of_readNumber`): one that is too large is an error,
and scaling down does not lead to infinity.
-/

namespace TypeSolver.Json

/-! ## What follows a number -/

/-- Whether a number cannot go on with this text. -/
def EndsNumber (rest : List Char) : Prop :=
  ∀ c ∈ rest.head?, c.isDigit = false ∧ c ≠ '.' ∧ isExponentMark c = false

lemma endsNumber_cons {c : Char} (h : c ∈ [',', ']', '\x7d']) (rest : List Char) :
    EndsNumber (c :: rest) := by
  rintro _ ⟨rfl⟩
  simp only [List.mem_cons, List.not_mem_nil, or_false] at h
  rcases h with rfl | rfl | rfl <;> decide

section Append

variable {cs rest : List Char}

lemma takeDigits_append (h : ∀ c ∈ rest.head?, c.isDigit = false) :
    takeDigits (cs ++ rest) = ((takeDigits cs).1, (takeDigits cs).2 ++ rest) := by
  induction cs with
  | nil =>
    cases rest with
    | nil => rfl
    | cons c rest => simp [takeDigits, h c rfl]
  | cons c cs ih =>
    unfold takeDigits at ih ⊢
    cases hc : c.isDigit with
    | true => simp_all
    | false => simp [hc]

lemma someDigits_append {ds r : List Char} (h : ∀ c ∈ rest.head?, c.isDigit = false)
    (hcs : someDigits cs = .ok (ds, r)) : someDigits (cs ++ rest) = .ok (ds, r ++ rest) := by
  unfold someDigits at hcs ⊢
  rw [takeDigits_append h]
  cases hsplit : takeDigits cs with
  | mk digits after =>
    rw [hsplit] at hcs
    cases digits with
    | nil => cases after <;> cases hcs
    | cons d digits =>
      cases hcs
      rfl

lemma wholeDigits_eq_ok {ds r : List Char} :
    wholeDigits cs = .ok (ds, r) ↔ someDigits cs = .ok (ds, r) ∧ ∀ d t, ds ≠ '0' :: d :: t := by
  unfold wholeDigits
  rw [bind_eq_ok]
  constructor
  · rintro ⟨⟨digits, after⟩, hdigits, hwhole⟩
    dsimp only at hwhole
    split at hwhole
    · cases hwhole
    · rename_i hzero
      cases hwhole
      exact ⟨hdigits, hzero⟩
  · rintro ⟨hdigits, hzero⟩
    refine ⟨(ds, r), hdigits, ?_⟩
    dsimp only
    split
    · exact absurd rfl (hzero _ _)
    · rfl

lemma wholeDigits_append {ds r : List Char} (h : ∀ c ∈ rest.head?, c.isDigit = false)
    (hcs : wholeDigits cs = .ok (ds, r)) : wholeDigits (cs ++ rest) = .ok (ds, r ++ rest) := by
  obtain ⟨hdigits, hzero⟩ := wholeDigits_eq_ok.1 hcs
  exact wholeDigits_eq_ok.2 ⟨someDigits_append h hdigits, hzero⟩

lemma decimalDigits_of_ne_point (h : ∀ c ∈ cs.head?, c ≠ '.') :
    decimalDigits cs = .ok (none, cs) := by
  unfold decimalDigits
  split
  · exact absurd rfl (h '.' rfl)
  · rfl

lemma decimalDigits_append {ds : Option (List Char)} {r : List Char} (h : EndsNumber rest)
    (hcs : decimalDigits cs = .ok (ds, r)) : decimalDigits (cs ++ rest) = .ok (ds, r ++ rest) := by
  unfold decimalDigits at hcs
  split at hcs
  · obtain ⟨⟨digits, after⟩, hdigits, hdone⟩ := bind_eq_ok.1 hcs
    cases hdone
    rw [List.cons_append, decimalDigits, someDigits_append (fun c hc => (h c hc).1) hdigits]
    rfl
  · rename_i hpoint
    cases hcs
    refine decimalDigits_of_ne_point fun c hc => ?_
    cases cs with
    | nil => exact (h c hc).2.1
    | cons d cs =>
      rintro rfl
      exact hpoint cs (by simpa using hc)

lemma exponentSign_append (h : cs ≠ []) :
    exponentSign (cs ++ rest) = ((exponentSign cs).1, (exponentSign cs).2 ++ rest) := by
  obtain ⟨c, cs, rfl⟩ := List.exists_cons_of_ne_nil h
  rw [List.cons_append]
  unfold exponentSign
  split <;> simp_all

lemma exponentDigits_append {e : Option (Bool × List Char)} {r : List Char} (h : EndsNumber rest)
    (hcs : exponentDigits cs = .ok (e, r)) : exponentDigits (cs ++ rest) = .ok (e, r ++ rest) := by
  cases cs with
  | nil =>
    cases hcs
    cases rest with
    | nil => rfl
    | cons c rest => simp [exponentDigits, (h c rfl).2.2]
  | cons c cs =>
    rw [exponentDigits] at hcs
    rw [List.cons_append, exponentDigits]
    split at hcs
    · rename_i hmark
      rw [if_pos hmark]
      obtain ⟨⟨digits, after⟩, hdigits, hdone⟩ := bind_eq_ok.1 hcs
      cases hdone
      have hne : cs ≠ [] := by
        rintro rfl
        cases hdigits
      rw [exponentSign_append hne]
      exact bind_eq_ok.2 ⟨_, someDigits_append (fun c hc => (h c hc).1) hdigits, rfl⟩
    · rename_i hmark
      cases hcs
      rw [if_neg hmark]
      rfl

lemma readNumeral_append {negative : Bool} {n : Numeral} {r : List Char} (h : EndsNumber rest)
    (hcs : readNumeral negative cs = .ok (n, r)) :
    readNumeral negative (cs ++ rest) = .ok (n, r ++ rest) := by
  obtain ⟨⟨whole, cs₁⟩, hwhole, hcs⟩ := bind_eq_ok.1 hcs
  obtain ⟨⟨decimals, cs₂⟩, hdecimals, hcs⟩ := bind_eq_ok.1 hcs
  obtain ⟨⟨exponent, cs₃⟩, hexponent, hcs⟩ := bind_eq_ok.1 hcs
  cases hcs
  refine bind_eq_ok.2 ⟨_, wholeDigits_append (fun c hc => (h c hc).1) hwhole, ?_⟩
  refine bind_eq_ok.2 ⟨_, decimalDigits_append h hdecimals, ?_⟩
  exact bind_eq_ok.2 ⟨_, exponentDigits_append h hexponent, rfl⟩

/-- What follows a number does not change it. -/
lemma readNumber_append {negative : Bool} {n : Number} {r : List Char} (h : EndsNumber rest)
    (hcs : readNumber negative cs = .ok (n, r)) :
    readNumber negative (cs ++ rest) = .ok (n, r ++ rest) := by
  obtain ⟨⟨numeral, after⟩, hnumeral, hcs⟩ := bind_eq_ok.1 hcs
  obtain ⟨value, hvalue, hcs⟩ := bind_eq_ok.1 hcs
  cases hcs
  exact bind_eq_ok.2 ⟨_, readNumeral_append h hnumeral, bind_eq_ok.2 ⟨_, hvalue, rfl⟩⟩

end Append

/-! ### Integers and doubles -/

lemma of_decimalDigits_none {cs r : List Char} (h : decimalDigits cs = .ok (none, r)) : r = cs := by
  unfold decimalDigits at h
  split at h
  · obtain ⟨_, -, hdone⟩ := bind_eq_ok.1 h
    cases hdone
  · cases h
    rfl

lemma of_exponentDigits_none {cs r : List Char} (h : exponentDigits cs = .ok (none, r)) :
    r = cs := by
  cases cs with
  | nil =>
    cases h
    rfl
  | cons c cs =>
    rw [exponentDigits] at h
    split at h
    · obtain ⟨_, -, hdone⟩ := bind_eq_ok.1 h
      cases hdone
    · cases h
      rfl

lemma of_someDigits {cs ds r : List Char} (h : someDigits cs = .ok (ds, r)) :
    cs = ds ++ r ∧ ∀ d ∈ ds, d.isDigit = true := by
  have hfound : takeDigits cs = (ds, r) := by
    unfold someDigits at h
    split at h
    · cases h
    · cases h
    · rename_i hfound _ _
      exact Except.ok.inj h
  obtain ⟨rfl, rfl⟩ := Prod.mk.inj hfound
  exact ⟨List.takeWhile_append_dropWhile.symm, List.all_eq_true.1 List.all_takeWhile⟩

/-- A whole text that is read as an integer consists of digits. -/
lemma isDigit_of_integer? {negative : Bool} {n : Numeral} {cs : List Char}
    (hcs : readNumeral negative cs = .ok (n, [])) (hinteger : n.integer? ≠ none) :
    ∀ c ∈ cs, c.isDigit = true := by
  obtain ⟨⟨whole, cs₁⟩, hwhole, hcs⟩ := bind_eq_ok.1 hcs
  obtain ⟨⟨decimals, cs₂⟩, hdecimals, hcs⟩ := bind_eq_ok.1 hcs
  obtain ⟨⟨exponent, cs₃⟩, hexponent, hcs⟩ := bind_eq_ok.1 hcs
  cases hcs
  obtain ⟨rfl, rfl⟩ : decimals = none ∧ exponent = none := by
    unfold Numeral.integer? at hinteger
    dsimp only at hinteger
    split at hinteger
    · exact ⟨rfl, rfl⟩
    · exact absurd rfl hinteger
  obtain ⟨hsplit, hdigits⟩ := of_someDigits (wholeDigits_eq_ok.1 hwhole).1
  have hrest : cs₁ = [] := (of_decimalDigits_none hdecimals).symm.trans
    (of_exponentDigits_none hexponent).symm
  rw [hsplit, hrest, List.append_nil]
  exact hdigits

/-- The text of a double has a point or an exponent. -/
lemma exists_mark_of_double (x : Double) :
    ∃ c ∈ writeNumber (.double x), c = '.' ∨ c = 'e' := by
  have hplaced : ∀ digits leading, '.' ∈ NumberLayout.exchanged.placed digits leading := by
    intro digits leading
    unfold NumberLayout.placed
    split
    · simp
    · dsimp only
      split <;> simp [NumberLayout.exchanged]
  have hmagnitude : ∀ code, ∃ c ∈ NumberLayout.exchanged.magnitude code, c = '.' ∨ c = 'e' := by
    intro code
    unfold NumberLayout.magnitude
    split
    · exact ⟨'.', hplaced _ _, .inl rfl⟩
    · dsimp only
      split
      · exact ⟨'.', hplaced _ _, .inl rfl⟩
      · exact ⟨'e', by simp [NumberLayout.withExponent], .inr rfl⟩
  obtain ⟨c, hc, hmark⟩ := hmagnitude x.code
  refine ⟨c, ?_, hmark⟩
  rw [writeNumber, NumberLayout.finite]
  split
  · exact List.mem_cons_of_mem _ hc
  · exact hc

/-! ## Values by their first character -/

section FirstCharacter

variable {limit room : Nat} {cs : List Char}

lemma not_isSpace_of_isDigit {c : Char} (h : c.isDigit = true) : isSpace c = false := by
  have hspaces : ∀ s ∈ [' ', '\t', '\n', '\r'], s.isDigit = false := by simp
  rw [← Bool.not_eq_true]
  intro hspace
  simp only [isSpace, Bool.or_eq_true, decide_eq_true_iff, or_assoc] at hspace
  have hmem : c ∈ [' ', '\t', '\n', '\r'] := by simpa using hspace
  rw [hspaces c hmem] at h
  cases h

lemma skipSpace_cons {c : Char} (h : isSpace c = false) : skipSpace (c :: cs) = c :: cs := by
  simp [skipSpace, h]

lemma readValue_minus : readValue limit room ('-' :: cs) =
    (readNumber true cs).bind fun found => .ok (.number found.1, found.2) := by
  unfold readValue
  rfl

lemma readValue_digit {c : Char} (h : c.isDigit = true) : readValue limit room (c :: cs) =
    (readNumber false (c :: cs)).bind fun found => .ok (.number found.1, found.2) := by
  have hmarks : ∀ s ∈ ['n', 't', 'f', '-'], s.isDigit = false := by simp
  have hletters : ∀ s ∈ ['n', 't', 'f', '-'], c ≠ s := by
    rintro s hs rfl
    rw [hmarks c hs] at h
    cases h
  simp only [List.forall_mem_cons] at hletters
  unfold readValue
  rw [skipSpace_cons (not_isSpace_of_isDigit h)]
  simp only [hletters, h, if_true, if_false]
  rfl

end FirstCharacter

/-! ## Numbers as values -/

/-- The digits of a number start with a digit. -/
lemma exists_cons_of_digits (n : Nat) :
    ∃ c cs, Nat.toDigits 10 n = c :: cs ∧ c.isDigit = true := by
  obtain ⟨c, cs, hcs⟩ := List.exists_cons_of_ne_nil (Nat.toDigits_ne_nil (b := 10) (n := n))
  have hmem : c ∈ Nat.toDigits 10 n := hcs ▸ List.mem_cons_self
  exact ⟨c, cs, hcs, Nat.isDigit_of_mem_toDigits (by decide) (by decide) hmem⟩

lemma exists_cons_of_magnitude (code : Nat) :
    ∃ c cs, NumberLayout.exchanged.magnitude code = c :: cs ∧ c.isDigit = true := by
  have hplaced : ∀ d ds leading, d.isDigit = true →
      ∃ c cs, NumberLayout.exchanged.placed (d :: ds) leading = c :: cs ∧ c.isDigit = true := by
    intro d ds leading hd
    unfold NumberLayout.placed
    split
    · exact ⟨'0', _, rfl, rfl⟩
    · dsimp only
      split
      · exact ⟨d, _, rfl, hd⟩
      · exact ⟨d, _, rfl, hd⟩
  unfold NumberLayout.magnitude
  split
  · exact hplaced '0' [] 0 rfl
  · obtain ⟨d, ds, hds, hd⟩ := exists_cons_of_digits (Decimal.shortest .toEven code).digits
    have htie : NumberLayout.exchanged.tie = .toEven := rfl
    dsimp only
    rw [htie, hds]
    split
    · exact hplaced d ds _ hd
    · cases ds with
      | nil => exact ⟨d, _, rfl, hd⟩
      | cons e ds => exact ⟨d, _, rfl, hd⟩

lemma exists_cons_of_number (n : Number) :
    ∃ c cs, writeNumber n = c :: cs ∧ (c = '-' ∨ c.isDigit = true) := by
  cases n with
  | nat n =>
    obtain ⟨c, cs, hcs, hc⟩ := exists_cons_of_digits n
    exact ⟨c, cs, hcs, .inr hc⟩
  | negative n => exact ⟨'-', _, rfl, .inl rfl⟩
  | double x =>
    rw [writeNumber, NumberLayout.finite]
    split
    · exact ⟨'-', _, rfl, .inl rfl⟩
    · obtain ⟨c, cs, hcs, hc⟩ := exists_cons_of_magnitude x.code
      exact ⟨c, cs, hcs, .inr hc⟩

/-- Whether reading the text of a number gives that number back. -/
def readsBack (x : Double) : Bool :=
  match readValue 0 0 (writeNumber (.double x)) with
  | .ok (.number n, []) => n.toDouble = x
  | _ => false

/-- A number is read from its text, whatever follows it. -/
def Number.ReadsBack (n : Number) : Prop :=
  ∀ limit room rest, EndsNumber rest →
    readValue limit room (writeNumber n ++ rest) = .ok (.number n, rest)

/-- The text of a number is read behind its sign, if it has one. -/
lemma readValue_writeNumber (n : Number) :
    ∃ negative body, (∀ c ∈ writeNumber n, c ≠ '-' → c ∈ body) ∧
      ∀ limit room rest, readValue limit room (writeNumber n ++ rest) =
        (readNumber negative (body ++ rest)).bind fun found => .ok (.number found.1, found.2) := by
  obtain ⟨c, cs, hcs, rfl | hc⟩ := exists_cons_of_number n
  · refine ⟨true, cs, fun d hd hne => ?_, fun limit room rest => ?_⟩
    · rw [hcs, List.mem_cons] at hd
      exact hd.resolve_left hne
    · rw [hcs, List.cons_append, readValue_minus]
  · refine ⟨false, c :: cs, fun d hd _ => hcs ▸ hd, fun limit room rest => ?_⟩
    rw [hcs, List.cons_append, readValue_digit hc]

/-- A number with a point or an exponent is a double. -/
lemma exists_double_of_readNumber {negative : Bool} {body : List Char} {n : Number} {c : Char}
    (hread : readNumber negative body = .ok (n, [])) (hc : c ∈ body) (hdigit : c.isDigit = false) :
    ∃ x, n = .double x := by
  obtain ⟨⟨numeral, after⟩, hnumeral, hread⟩ := bind_eq_ok.1 hread
  obtain ⟨value, hvalue, hdone⟩ := bind_eq_ok.1 hread
  cases hdone
  have hinteger : numeral.integer? = none := by
    by_contra hinteger
    rw [isDigit_of_integer? hnumeral hinteger c hc] at hdigit
    cases hdigit
  rw [Numeral.value, hinteger] at hvalue
  dsimp only at hvalue
  split at hvalue
  · exact ⟨_, (Except.ok.inj hvalue).symm⟩
  · cases hvalue

/-- The text of a double is read as a double, so the same number is the same value. -/
lemma Number.readsBack_double {x : Double} (h : readsBack x = true) : (double x).ReadsBack := by
  obtain ⟨negative, body, hmem, hread⟩ := readValue_writeNumber (.double x)
  have hwhole := hread 0 0 []
  rw [List.append_nil, List.append_nil] at hwhole
  rw [readsBack, hwhole] at h
  split at h
  · rename_i n hvalue
    obtain ⟨⟨m, after⟩, hbody, hdone⟩ := bind_eq_ok.1 hvalue
    cases hdone
    obtain ⟨c, hc, hmark⟩ := exists_mark_of_double x
    have hdigit : c.isDigit = false ∧ c ≠ '-' := by rcases hmark with rfl | rfl <;> decide
    obtain ⟨y, rfl⟩ := exists_double_of_readNumber hbody (hmem c hc hdigit.2) hdigit.1
    obtain rfl : y = x := of_decide_eq_true h
    intro limit room rest hrest
    rw [hread, readNumber_append hrest hbody]
    rfl
  · cases h

/-! ### Integers -/

lemma absorb_append_singleton {n m : Nat} {ds : List Char} {d : Char} (h : absorb n ds = (m, 0))
    (hd : 10 * m + digitValue d < Nat.pow 2 64) :
    absorb n (ds ++ [d]) = (10 * m + digitValue d, 0) := by
  induction ds generalizing n with
  | nil =>
    cases h
    simp only [List.nil_append, absorb, hd, if_true]
  | cons e ds ih =>
    rw [absorb] at h
    rw [List.cons_append, absorb]
    split at h
    · rename_i hlt
      rw [if_pos hlt, ih h]
    · cases h

lemma absorb_toDigits {n : Nat} (hn : n < Nat.pow 2 64) :
    absorb 0 (Nat.toDigits 10 n) = (n, 0) := by
  have hdigit : ∀ d < 10, digitValue (Nat.digitChar d) = d := by decide
  induction n using Nat.strong_induction_on with
  | _ n ih =>
    rw [Nat.toDigits_eq_if (by decide)]
    split
    · rename_i hlt
      simp only [absorb, Nat.mul_zero, Nat.zero_add, hdigit n hlt, hn, if_true]
    · rename_i hle
      have hlast := hdigit (n % 10) (Nat.mod_lt _ (by decide))
      have hsum : 10 * (n / 10) + digitValue (Nat.digitChar (n % 10)) = n := by
        rw [hlast, Nat.div_add_mod]
      rw [absorb_append_singleton (ih (n / 10) (by omega) (by omega)) (by rw [hsum]; exact hn),
        hsum]

lemma someDigits_toDigits (n : Nat) :
    someDigits (Nat.toDigits 10 n) = .ok (Nat.toDigits 10 n, []) := by
  have hdigits : ∀ c ∈ Nat.toDigits 10 n, c.isDigit = true :=
    fun c hc => Nat.isDigit_of_mem_toDigits (by decide) (by decide) hc
  have htake : takeDigits (Nat.toDigits 10 n) = (Nat.toDigits 10 n, []) := by
    rw [takeDigits, List.takeWhile_eq_self_iff.2 hdigits, List.dropWhile_eq_nil_iff.2 hdigits]
  obtain ⟨c, cs, hcs, -⟩ := exists_cons_of_digits n
  rw [someDigits, htake, hcs]

/-- The digits of a count are read as that count. -/
lemma readNumber_toDigits {n : Nat} (hn : n < Nat.pow 2 64) :
    readNumber false (Nat.toDigits 10 n) = .ok (.nat n, []) := by
  have hzero : ∀ d t, Nat.toDigits 10 n ≠ '0' :: d :: t := by
    intro d t hcs
    rcases Nat.eq_zero_or_pos n with rfl | hpos
    · cases hcs
    · obtain ⟨c, cs, hhead, hne⟩ := exists_cons_toDigits hpos
      rw [hcs] at hhead
      exact hne (List.cons.inj hhead).1.symm
  have hnumeral : readNumeral false (Nat.toDigits 10 n) =
      .ok (⟨false, Nat.toDigits 10 n, none, none⟩, []) :=
    bind_eq_ok.2 ⟨_, wholeDigits_eq_ok.2 ⟨someDigits_toDigits n, hzero⟩, rfl⟩
  refine bind_eq_ok.2 ⟨_, hnumeral, ?_⟩
  simp [Numeral.value, Numeral.integer?, absorb_toDigits hn]

/-! ## Numbers that are read are finite -/

open Double

lemma absorb_lt {n : Nat} (hn : n < Nat.pow 2 64) (ds : List Char) :
    (absorb n ds).1 < Nat.pow 2 64 := by
  induction ds generalizing n with
  | nil => exact hn
  | cons d ds ih =>
    rw [absorb]
    split
    · rename_i hnext
      exact ih hnext
    · exact hn

lemma two_pow_le_units_powerOfTen {e : Nat} (he : e ≤ largestPower) :
    2 ^ (1074 + e) ≤ units (powerOfTen e) := by
  unfold largestPower at he
  have hpower : 1 * 2 ^ e ≤ Nat.pow 10 e := by
    rw [Nat.one_mul, Nat.pow_eq]
    exact Nat.pow_le_pow_left (by decide) e
  have hcode : (1022 + e + 1) * 2 ^ 52 ≤ powerOfTen e := by
    rw [Nat.add_right_comm]
    exact le_nearestCode Nat.one_pos (by omega) hpower
  have hunits := le_units hcode
  rwa [← Nat.add_assoc] at hunits

lemma divCode_le {a b k m j : Nat} (ha : a ≤ (k + 1) * 2 ^ 52) (hb : 2 ^ m ≤ units b)
    (hle : 53 + k ≤ m + j) : divCode a b ≤ (1024 + j) * 2 ^ 52 := by
  refine nearestCode_le ?_
  calc units a ≤ 2 ^ (53 + k) := (units_lt ha).le
    _ ≤ 2 ^ (m + j) := Nat.pow_le_pow_right (by decide) hle
    _ = 2 ^ m * 2 ^ j := Nat.pow_add _ _ _
    _ ≤ units b * 2 ^ j := Nat.mul_le_mul_right _ hb

/-- Division by a power of ten never makes a 64-bit integer too large: one by the largest power
takes away more than rounding can add. -/
lemma divPowerOfTen_lt {code e : Nat} (hcode : code ≤ (1087 + 1) * 2 ^ 52) :
    divPowerOfTen code e < infinityCode := by
  have hinfinity : (1024 + 66) * 2 ^ 52 < infinityCode := by decide
  induction e using Nat.strong_induction_on generalizing code with
  | _ e ih =>
    unfold divPowerOfTen
    split
    · rename_i he
      have hunits := two_pow_le_units_powerOfTen he
      exact (divCode_le hcode hunits (by omega)).trans_lt hinfinity
    · rename_i he
      split
      · exact Nat.zero_lt_of_lt hinfinity
      · have hunits := two_pow_le_units_powerOfTen (Nat.le_refl largestPower)
        have hlarge : 53 + 1087 ≤ 1074 + largestPower + 0 := by decide
        refine ih (e - largestPower) (by unfold largestPower at he ⊢; omega) ?_
        exact (divCode_le hcode hunits hlarge).trans (by decide)

lemma scaleCode?_lt {n code : Nat} {exponent : Int} (hn : n < Nat.pow 2 64)
    (h : scaleCode? n exponent = some code) : code < infinityCode := by
  have hnearest : nearestCode n 1 ≤ (1087 + 1) * 2 ^ 52 :=
    nearestCode_le (j := 64) (by rw [Nat.one_mul]; exact hn.le)
  unfold scaleCode? at h
  dsimp only at h
  split at h
  · unfold mulPowerOfTen? at h
    dsimp only at h
    split at h
    · split at h
      · rename_i hproduct
        rw [← Option.some.inj h]
        exact hproduct
      · cases h
    · split at h
      · cases h
        decide
      · cases h
  · rw [← Option.some.inj h]
    exact divPowerOfTen_lt hnearest

lemma Numeral.code?_lt {n : Numeral} {code : Nat} (h : n.code? = some code) :
    code < infinityCode := by
  have hdigits : (absorb (absorb 0 n.whole).1 (n.decimals.getD [])).1 < Nat.pow 2 64 :=
    absorb_lt (absorb_lt (by decide) _) _
  unfold Numeral.code? at h
  dsimp only at h
  split at h
  · exact scaleCode?_lt hdigits h
  · split at h
    · split at h
      · cases h
        decide
      · cases h
    · split at h
      · exact scaleCode?_lt hdigits h
      · exact scaleCode?_lt hdigits h

lemma Numeral.isFinite_of_integer? {n : Numeral} {i : Number} (h : n.integer? = some i) :
    i.toDouble.isFinite = true := by
  have hlt : (absorb 0 n.whole).1 < 2 ^ 64 := absorb_lt (by decide) n.whole
  unfold Numeral.integer? at h
  split at h
  · rename_i m habsorb _ _
    rw [habsorb] at hlt
    split at h
    · cases h
      exact isFinite_ofInt hlt
    · split at h
      · cases h
      · cases h
        exact isFinite_ofInt (by rwa [Int.natAbs_neg])
  · cases h

/-- A number that is read is finite. -/
lemma isFinite_of_readNumber {negative : Bool} {cs rest : List Char} {n : Number}
    (h : readNumber negative cs = .ok (n, rest)) : n.toDouble.isFinite = true := by
  obtain ⟨⟨numeral, after⟩, -, h⟩ := bind_eq_ok.1 h
  obtain ⟨m, hvalue, hdone⟩ := bind_eq_ok.1 h
  cases hdone
  unfold Numeral.value at hvalue
  split at hvalue
  · rename_i i hinteger
    cases hvalue
    exact Numeral.isFinite_of_integer? hinteger
  · split at hvalue
    · rename_i code hcode
      cases hvalue
      exact isFinite_ofCode _ (Numeral.code?_lt hcode)
    · cases hvalue

end TypeSolver.Json
