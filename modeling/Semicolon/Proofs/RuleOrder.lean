import Mathlib.Data.List.Basic
import Mathlib.Data.Set.Insert
import Semicolon.Proofs.LineEnd
import Semicolon.Proofs.Numeral

/-!
# The order in which rules are tried

No two suffixes end the same line, and where one does, no rule accepts the last word.  How a token
begins says which rules may accept it: the first character tells words, numbers, points and quotes
apart, and the first character after the digits tells the numbers apart.  Two pairs of rules
remain that share tokens, and in both every token of the first rule is one of the second.

So all that an order of the rules can change is which rule of a pair is reported.

## Main statements

* `Suffix.eq_of_endsLine`, `Suffix.not_accepts_of_endsLine`: what a suffix excludes.
* `TokenRule.mem_candidates_of_accepts`: which rules may accept a token.
* `TokenRule.accepting_cases`: which sets of rules accept the same token.
* `decideInOrder_eq_decideLine`: every order that keeps the pairs decides a line alike.
-/

namespace Semicolon

/-! ## Suffixes -/

namespace Suffix

/-- A line ends in the last character of its suffix. -/
theorem getLast?_of_endsLine {suffix : Suffix} {line : Text} (h : suffix.endsLine line = true) :
    line.getLast? = suffix.text.getLast? := by
  obtain ⟨before, rfl⟩ := endsLine_iff.1 h
  cases suffix <;> simp [text]

/-- A suffix is known by its last character. -/
theorem eq_of_getLast?_text {suffix other : Suffix}
    (h : suffix.text.getLast? = other.text.getLast?) : suffix = other := by
  cases suffix <;> cases other <;> first | rfl | exact absurd h (by decide)

/-- **No two suffixes end the same line.** -/
theorem eq_of_endsLine {suffix other : Suffix} {line : Text} (h : suffix.endsLine line = true)
    (hother : other.endsLine line = true) : suffix = other :=
  eq_of_getLast?_text ((getLast?_of_endsLine h).symm.trans (getLast?_of_endsLine hother))

/-- The last character of a suffix belongs to a word, but no accepted token ends in it. -/
theorem exists_getLast?_text (suffix : Suffix) :
    ∃ c, suffix.text.getLast? = some c ∧ isSeparator c = false ∧ isOperandEnd c = false := by
  cases suffix <;> exact ⟨_, rfl, by decide, by decide⟩

/-- **Where a suffix ends a line, no rule accepts its last word.** -/
theorem not_accepts_of_endsLine {suffix : Suffix} {line word : Text}
    (h : suffix.endsLine line = true) (hword : lastWord? line = some word) (rule : TokenRule) :
    rule.accepts word = false := by
  obtain ⟨c, hc, hseparator, hoperand⟩ := suffix.exists_getLast?_text
  rw [← getLast?_of_endsLine h] at hc
  obtain ⟨before, rfl⟩ := List.getLast?_eq_some_iff.1 hc
  obtain ⟨front, hfront⟩ := exists_lastWord?_append hseparator before
  have hnone := TokenRule.find?_append_eq_none hoperand front
  rw [hfront] at hword
  obtain rfl := Option.some.inj hword
  rw [TokenRule.find?, List.find?_eq_none] at hnone
  simpa using hnone rule rule.mem_all

/-- Where a suffix is found, no rule is found for the last word. -/
theorem bind_lastWord?_eq_none {suffix : Suffix} {line : Text} (h : find? line = some suffix) :
    (lastWord? line).bind TokenRule.find? = none := by
  rw [Option.bind_eq_none_iff]
  intro word hlast
  rw [TokenRule.find?, List.find?_eq_none]
  intro rule _
  have hends : suffix.endsLine line = true := (List.find?_eq_some_iff_append.1 h).1
  simp [not_accepts_of_endsLine hends hlast rule]

end Suffix

/-! ## Tokens -/

namespace TokenRule

theorem startsIdentifier_of_isDigit {c : Char} (h : c.isDigit = true) :
    startsIdentifier c = false := by
  have hnine : c ≤ '9' := of_decide_eq_true (Bool.and_eq_true_iff.1 h).2
  have hupper : c.isUpper = false := by
    refine decide_eq_false ?_
    rintro ⟨hA, -⟩
    exact absurd (Char.le_trans hA hnine) (by decide)
  have hlower : c.isLower = false := by
    refine Bool.and_eq_false_iff.2 (.inl (decide_eq_false ?_))
    intro ha
    exact absurd (Char.le_trans ha hnine) (by decide)
  have halpha : c.isAlpha = false := by
    change (c.isUpper || c.isLower) = false
    rw [hupper, hlower]
    rfl
  have hunderscore : c ≠ '_' := by
    rintro rfl
    exact absurd h (by decide)
  simp [startsIdentifier, halpha, hunderscore]

/-- The rules that may accept a token, by its first character and, in a number, by the first
character that is no digit. -/
def candidates (first : Char) (next? : Option Char) : List TokenRule :=
  if startsIdentifier first then [reservedWord, identifier]
  else if first.isDigit then
    if next? = some '.' then [decimalFloat]
    else if next? = some 'x' ∨ next? = some 'X' then [hexLiteral]
    else if next? = some 'e' ∨ next? = some 'E' then [exponentNumber]
    else [integer, exponentNumber]
  else if first = '.' then [leadingDotFloat]
  else if first = '\x22' then [doubleQuotedString]
  else [rawString]

theorem candidates_of_isDigit {first : Char} (h : first.isDigit = true) (next? : Option Char) :
    candidates first next? =
      if next? = some '.' then [decimalFloat]
      else if next? = some 'x' ∨ next? = some 'X' then [hexLiteral]
      else if next? = some 'e' ∨ next? = some 'E' then [exponentNumber]
      else [integer, exponentNumber] := by
  simp [candidates, startsIdentifier_of_isDigit h, h]

/-- A number begins with a digit. -/
theorem exists_digit_of_digitsThen {ends : Text → Bool} {token : Text}
    (h : Numeral.digitsThen ends token = true) :
    ∃ first rest, token = first :: rest ∧ first.isDigit = true ∧
      ends (token.dropWhile Char.isDigit) = true := by
  obtain ⟨hdigits, hends⟩ := Numeral.digitsThen_eq_true_iff.1 h
  cases token with
  | nil => exact absurd rfl hdigits
  | cons first rest =>
    refine ⟨first, rest, rfl, ?_, hends⟩
    by_contra hfirst
    exact hdigits (List.takeWhile_cons_of_neg hfirst)

theorem exists_head_of_isQuotedBy {quote : Char} {token : Text}
    (h : isQuotedBy quote token = true) :
    ∃ rest, token = quote :: rest := by
  simp only [isQuotedBy, Bool.and_eq_true, beq_iff_eq] at h
  exact List.head?_eq_some_iff.1 h.1.2

/-- **How a token begins says which rules may accept it.** -/
theorem mem_candidates_of_accepts {rule : TokenRule} {token : Text}
    (h : rule.accepts token = true) :
    ∃ first rest, token = first :: rest ∧
      rule ∈ candidates first (token.dropWhile Char.isDigit).head? := by
  cases rule with
  | reservedWord =>
    have hword : ∃ word ∈ reservedWords, word.toList = token := by simpa [accepts] using h
    obtain ⟨word, hmem, rfl⟩ := hword
    simp only [reservedWords, List.mem_cons, List.not_mem_nil, or_false] at hmem
    rcases hmem with rfl | rfl | rfl | rfl <;> exact ⟨_, _, rfl, by decide⟩
  | identifier =>
    cases token with
    | nil => exact absurd h (by simp [accepts, isIdentifier])
    | cons first rest =>
      have hfirst : startsIdentifier first = true := by
        simp only [accepts, isIdentifier, Bool.and_eq_true] at h
        exact h.1
      exact ⟨first, rest, rfl, by simp [candidates, hfirst]⟩
  | integer =>
    obtain ⟨first, rest, htoken, hfirst, hends⟩ := exists_digit_of_digitsThen h
    refine ⟨first, rest, htoken, ?_⟩
    rcases Numeral.endsImaginary_iff.1 hends with hnil | himaginary
    · simp [candidates_of_isDigit hfirst, hnil]
    · simp [candidates_of_isDigit hfirst, himaginary]
  | hexLiteral =>
    simp only [accepts] at h
    unfold Numeral.isHex at h
    split at h
    · exact ⟨_, _, rfl, by simp [candidates_of_isDigit]⟩
    · exact ⟨_, _, rfl, by simp [candidates_of_isDigit]⟩
    · exact absurd h (by simp)
  | decimalFloat =>
    obtain ⟨first, rest, htoken, hfirst, hends⟩ := exists_digit_of_digitsThen h
    refine ⟨first, rest, htoken, ?_⟩
    unfold Numeral.endsFraction at hends
    split at hends
    · next hpoint => simp [candidates_of_isDigit hfirst, hpoint]
    · exact absurd hends (by simp)
  | exponentNumber =>
    obtain ⟨first, rest, htoken, hfirst, hends⟩ := exists_digit_of_digitsThen h
    refine ⟨first, rest, htoken, ?_⟩
    rcases Numeral.endsExponent_iff.1 hends with ⟨mark, tail, hmark, hrest, -⟩ | himaginary
    · rcases hmark with rfl | rfl <;> simp [candidates_of_isDigit hfirst, hrest]
    · rcases Numeral.endsImaginary_iff.1 himaginary with hnil | hi
      · simp [candidates_of_isDigit hfirst, hnil]
      · simp [candidates_of_isDigit hfirst, hi]
  | leadingDotFloat =>
    simp only [accepts] at h
    unfold Numeral.isLeadingDotFloat at h
    split at h
    · exact ⟨_, _, rfl, by simp [candidates, startsIdentifier]⟩
    · exact absurd h (by simp)
  | doubleQuotedString =>
    obtain ⟨rest, rfl⟩ := exists_head_of_isQuotedBy h
    exact ⟨_, _, rfl, by simp [candidates, startsIdentifier]⟩
  | rawString =>
    obtain ⟨rest, rfl⟩ := exists_head_of_isQuotedBy h
    exact ⟨_, _, rfl, by simp [candidates, startsIdentifier]⟩

/-- Only two of the lists of candidates have more than one rule. -/
theorem candidates_cases (first : Char) (next? : Option Char) :
    (∃ rule, candidates first next? = [rule]) ∨
      candidates first next? = [reservedWord, identifier] ∨
      candidates first next? = [integer, exponentNumber] := by
  unfold candidates
  repeat' split
  all_goals simp

/-! ## The two pairs -/

/-- Every keyword is an identifier. -/
theorem accepts_identifier_of_reservedWord {token : Text}
    (h : accepts reservedWord token = true) : accepts identifier token = true := by
  have hword : ∃ word ∈ reservedWords, word.toList = token := by simpa [accepts] using h
  obtain ⟨word, hmem, rfl⟩ := hword
  simp only [reservedWords, List.mem_cons, List.not_mem_nil, or_false] at hmem
  rcases hmem with rfl | rfl | rfl | rfl <;> decide

/-- Every integer is a number that lacks an exponent. -/
theorem accepts_exponentNumber_of_integer {token : Text} (h : accepts integer token = true) :
    accepts exponentNumber token = true := by
  obtain ⟨hdigits, hends⟩ := Numeral.digitsThen_eq_true_iff.1 h
  exact Numeral.digitsThen_eq_true_iff.2 ⟨hdigits, Numeral.endsExponent_iff.2 (.inr hends)⟩

/-- The rules that accept a token. -/
def accepting (token : Text) : Set TokenRule := {rule | rule.accepts token = true}

/-- Where the rules that accept a token are among two, and the second accepts what the first does,
no rule accepts it, or one does, or both do. -/
theorem accepting_cases_of_pair {token : Text} {rule other : TokenRule}
    (hsubset : accepting token ⊆ {rule, other})
    (himp : rule.accepts token = true → other.accepts token = true) :
    accepting token = ∅ ∨ (∃ only, accepting token = {only}) ∨ accepting token = {rule, other} := by
  by_cases hrule : rule.accepts token = true
  · right; right
    refine Set.Subset.antisymm hsubset ?_
    rintro found (rfl | rfl)
    · exact hrule
    · exact himp hrule
  · have hother : accepting token ⊆ {other} := by
      intro found hfound
      rcases hsubset hfound with rfl | hother
      · exact absurd hfound hrule
      · exact hother
    rcases Set.subset_singleton_iff_eq.1 hother with hempty | hone
    · exact .inl hempty
    · exact .inr (.inl ⟨other, hone⟩)

/-- **The rules that accept a token are none, one, or one of two pairs.** -/
theorem accepting_cases (token : Text) :
    accepting token = ∅ ∨ (∃ rule, accepting token = {rule}) ∨
      accepting token = {reservedWord, identifier} ∨
      accepting token = {integer, exponentNumber} := by
  cases token with
  | nil =>
    left
    refine Set.eq_empty_of_forall_notMem ?_
    intro rule hrule
    obtain ⟨first, rest, htoken, -⟩ := mem_candidates_of_accepts hrule
    exact absurd htoken (by simp)
  | cons first rest =>
    have hsubset : accepting (first :: rest) ⊆
        {rule | rule ∈ candidates first ((first :: rest).dropWhile Char.isDigit).head?} := by
      intro rule hrule
      obtain ⟨c, tail, htoken, hcandidate⟩ := mem_candidates_of_accepts hrule
      obtain ⟨rfl, -⟩ := List.cons.inj htoken
      exact hcandidate
    rcases candidates_cases first ((first :: rest).dropWhile Char.isDigit).head? with
      ⟨rule, hlist⟩ | hlist | hlist
    · have hone : accepting (first :: rest) ⊆ {rule} := by simpa [hlist] using hsubset
      rcases Set.subset_singleton_iff_eq.1 hone with hempty | hrule
      · exact .inl hempty
      · exact .inr (.inl ⟨rule, hrule⟩)
    · have hpair : accepting (first :: rest) ⊆ {reservedWord, identifier} := by
        intro rule hrule
        simpa [hlist] using hsubset hrule
      rcases accepting_cases_of_pair hpair accepts_identifier_of_reservedWord with h | h | h
      · exact .inl h
      · exact .inr (.inl h)
      · exact .inr (.inr (.inl h))
    · have hpair : accepting (first :: rest) ⊆ {integer, exponentNumber} := by
        intro rule hrule
        simpa [hlist] using hsubset hrule
      rcases accepting_cases_of_pair hpair accepts_exponentNumber_of_integer with h | h | h
      · exact .inl h
      · exact .inr (.inl h)
      · exact .inr (.inr (.inr h))

end TokenRule

/-! ## Other orders -/

/-- What is found in a list is the element that satisfies the test and stands before all others
that do. -/
theorem find?_eq_some_of_first {α : Type} [DecidableEq α] {list : List α} {test : α → Bool} {a : α}
    (hmem : a ∈ list) (ha : test a = true)
    (hfirst : ∀ b ∈ list, test b = true → a = b ∨ list.idxOf a < list.idxOf b) :
    list.find? test = some a := by
  cases hfind : list.find? test with
  | none => exact absurd ha (List.find?_eq_none.1 hfind a hmem)
  | some b =>
    obtain ⟨hb, before, after, rfl, hbefore⟩ := List.find?_eq_some_iff_append.1 hfind
    have notMem : ∀ c, test c = true → c ∉ before := by
      intro c hc hmem
      have hnot := hbefore c hmem
      simp [hc] at hnot
    rcases hfirst b (by simp) hb with rfl | hlt
    · rfl
    · -- Elements that satisfy the test do not stand before `b`.
      rw [List.idxOf_append_of_notMem (notMem a ha), List.idxOf_append_of_notMem (notMem b hb),
        List.idxOf_cons_self] at hlt
      omega

namespace TokenRule

/-- A list of all rules in which the first rule of each pair stands before the second. -/
structure KeepsPairs (rules : List TokenRule) : Prop where
  mem : ∀ rule, rule ∈ rules
  words : rules.idxOf reservedWord < rules.idxOf identifier
  numbers : rules.idxOf integer < rules.idxOf exponentNumber

theorem keepsPairs_all : KeepsPairs all :=
  ⟨mem_all, by decide, by decide⟩

/-- The rule of a pair that stands first is found. -/
theorem find?_of_accepting {rules : List TokenRule} {token : Text} {rule other : TokenRule}
    (haccepting : accepting token = {rule, other}) (hmem : rule ∈ rules)
    (horder : rule = other ∨ rules.idxOf rule < rules.idxOf other) :
    rules.find? (·.accepts token) = some rule := by
  have haccepts : ∀ found, found.accepts token = true ↔ found = rule ∨ found = other := by
    intro found
    exact Set.ext_iff.1 haccepting found
  refine find?_eq_some_of_first hmem ((haccepts rule).2 (.inl rfl)) ?_
  intro found _ hfound
  rcases (haccepts found).1 hfound with rfl | rfl
  · exact .inl rfl
  · exact horder

/-- **Every order that keeps the pairs finds the same rule.** -/
theorem find?_eq_of_keepsPairs {rules : List TokenRule} (h : KeepsPairs rules) (token : Text) :
    rules.find? (·.accepts token) = find? token := by
  unfold find?
  rcases accepting_cases token with hempty | ⟨rule, hone⟩ | hpair | hpair
  · have hnone : ∀ list : List TokenRule, list.find? (·.accepts token) = none := by
      intro list
      rw [List.find?_eq_none]
      intro rule _ haccepts
      exact Set.eq_empty_iff_forall_notMem.1 hempty rule haccepts
    rw [hnone, hnone]
  · rw [← Set.pair_eq_singleton] at hone
    rw [find?_of_accepting hone (h.mem _) (.inl rfl),
      find?_of_accepting hone (mem_all _) (.inl rfl)]
  · rw [find?_of_accepting hpair (h.mem _) (.inr h.words),
      find?_of_accepting hpair (mem_all _) (.inr keepsPairs_all.words)]
  · rw [find?_of_accepting hpair (h.mem _) (.inr h.numbers),
      find?_of_accepting hpair (mem_all _) (.inr keepsPairs_all.numbers)]

end TokenRule

/-- Every order of the suffixes finds the same one. -/
theorem Suffix.find?_eq_of_mem {suffixes : List Suffix} (h : ∀ suffix, suffix ∈ suffixes)
    (line : Text) : suffixes.find? (·.endsLine line) = Suffix.find? line := by
  unfold Suffix.find?
  by_cases hends : ∃ suffix : Suffix, suffix.endsLine line = true
  · obtain ⟨suffix, hsuffix⟩ := hends
    rw [find?_eq_some_of_first (h suffix) hsuffix fun _ _ hother =>
        .inl (Suffix.eq_of_endsLine hsuffix hother),
      find?_eq_some_of_first suffix.mem_all hsuffix fun _ _ hother =>
        .inl (Suffix.eq_of_endsLine hsuffix hother)]
  · have hnone : ∀ list : List Suffix, list.find? (·.endsLine line) = none := by
      intro list
      rw [List.find?_eq_none]
      intro suffix _ hsuffix
      exact hends ⟨suffix, hsuffix⟩
    rw [hnone, hnone]

/-- Decides a line with suffixes and rules in any order, and with the rules before the suffixes if
`rulesFirst` says so. -/
def decideInOrder (rulesFirst : Bool) (suffixes : List Suffix) (rules : List TokenRule)
    (line : Text) : Decision :=
  let suffix? := (suffixes.find? (·.endsLine line)).map Reason.suffix
  let rule? := ((lastWord? line).bind fun word => rules.find? (·.accepts word)).map Reason.token
  match if rulesFirst then rule?.or suffix? else suffix?.or rule? with
  | some reason => .terminate reason
  | none => .passThrough

/-- **A line is decided alike in every order that keeps the pairs**, whichever of the two families
comes first. -/
theorem decideInOrder_eq_decideLine (rulesFirst : Bool) {suffixes : List Suffix}
    {rules : List TokenRule} (hsuffixes : ∀ suffix, suffix ∈ suffixes)
    (hrules : TokenRule.KeepsPairs rules) (line : Text) :
    decideInOrder rulesFirst suffixes rules line = decideLine line := by
  have hword : ((lastWord? line).bind fun word => rules.find? (·.accepts word)) =
      (lastWord? line).bind TokenRule.find? := by
    congr 1
    funext word
    exact TokenRule.find?_eq_of_keepsPairs hrules word
  rw [decideInOrder, decideLine, Suffix.find?_eq_of_mem hsuffixes, hword]
  cases hsuffix : Suffix.find? line with
  | none => cases rulesFirst <;> cases (lastWord? line).bind TokenRule.find? <;> rfl
  | some suffix =>
    -- A suffix leaves the rules nothing to accept, so it does not matter that they come first.
    rw [Suffix.bind_lastWord?_eq_none hsuffix]
    cases rulesFirst <;> rfl

/-! ## Numbers with an exponent -/

namespace TokenRule

/-- An integer is accepted by its own rule and by that of numbers with an exponent. -/
theorem accepting_of_integer {token : Text} (h : accepts integer token = true) :
    accepting token = {integer, exponentNumber} := by
  have hinteger : integer ∈ accepting token := h
  have hexponent : exponentNumber ∈ accepting token := accepts_exponentNumber_of_integer h
  rcases accepting_cases token with hset | ⟨rule, hset⟩ | hset | hset
  · simp [hset] at hinteger
  · rw [hset, Set.mem_singleton_iff] at hinteger hexponent
    exact absurd (hinteger.trans hexponent.symm) (by decide)
  · simp [hset] at hinteger
  · exact hset

/-- A number with an exponent that is no integer is accepted by one rule. -/
theorem accepting_of_exponentNumber {token : Text} (h : accepts exponentNumber token = true)
    (hinteger : accepts integer token = false) : accepting token = {exponentNumber} := by
  have hexponent : exponentNumber ∈ accepting token := h
  have hnot : integer ∉ accepting token := by simp [accepting, hinteger]
  rcases accepting_cases token with hset | ⟨rule, hset⟩ | hset | hset
  · simp [hset] at hexponent
  · rw [hset, Set.mem_singleton_iff] at hexponent
    rw [hset, hexponent]
  · simp [hset] at hexponent
  · simp [hset] at hnot

/-- Numbers with an exponent are reported unless they are integers. -/
theorem find?_eq_exponentNumber_iff {token : Text} :
    find? token = some exponentNumber ↔
      accepts exponentNumber token = true ∧ accepts integer token = false := by
  constructor
  · intro h
    refine ⟨(List.find?_eq_some_iff_append.1 h).1, ?_⟩
    by_contra hinteger
    rw [Bool.not_eq_false] at hinteger
    rw [find?, find?_of_accepting (accepting_of_integer hinteger) (mem_all _)
      (.inr keepsPairs_all.numbers)] at h
    exact absurd h (by decide)
  · rintro ⟨hexponent, hinteger⟩
    have hone := accepting_of_exponentNumber hexponent hinteger
    rw [← Set.pair_eq_singleton] at hone
    exact find?_of_accepting hone (mem_all _) (.inl rfl)

/-- **The numbers that are reported to have an exponent have one**: after the digits stand a mark,
a sign that may be missing, digits, and an imaginary marker that may be missing. -/
theorem find?_eq_exponentNumber_iff_exists {token : Text} :
    find? token = some exponentNumber ↔
      ∃ whole mark sign power marker, Grammar.Digits whole ∧ (mark = 'e' ∨ mark = 'E') ∧
        Grammar.Sign sign ∧ Grammar.Digits power ∧ Grammar.Imaginary marker ∧
        token = whole ++ mark :: (sign ++ power ++ marker) := by
  rw [find?_eq_exponentNumber_iff]
  constructor
  · rintro ⟨hexponent, hinteger⟩
    obtain ⟨whole, rest, hwhole, hrest, rfl⟩ :=
      (Numeral.digitsThen_iff Numeral.noDigitFirst_endsExponent).1 hexponent
    rcases Numeral.endsExponent_iff.1 hrest with ⟨mark, tail, hmark, rfl, htail⟩ | himaginary
    · obtain ⟨sign, power, marker, hsign, hpower, hmarker, rfl⟩ :=
        Numeral.digitsThen_afterSign_iff.1 htail
      exact ⟨whole, mark, sign, power, marker, hwhole, hmark, hsign, hpower, hmarker, rfl⟩
    · have haccepts : accepts integer (whole ++ rest) = true :=
        (Numeral.digitsThen_iff Numeral.noDigitFirst_endsImaginary).2
          ⟨whole, rest, hwhole, himaginary, rfl⟩
      rw [haccepts] at hinteger
      exact absurd hinteger (by decide)
  · rintro ⟨whole, mark, sign, power, marker, hwhole, hmark, hsign, hpower, hmarker, rfl⟩
    have htail := Numeral.digitsThen_afterSign_iff.2
      ⟨sign, power, marker, hsign, hpower, hmarker, rfl⟩
    have hdigit : mark.isDigit = false := by rcases hmark with rfl | rfl <;> decide
    have hends : Numeral.endsExponent (mark :: (sign ++ power ++ marker)) = true :=
      Numeral.endsExponent_iff.2 (.inl ⟨mark, _, hmark, rfl, htail⟩)
    refine ⟨(Numeral.digitsThen_iff Numeral.noDigitFirst_endsExponent).2
      ⟨whole, _, hwhole, hends, rfl⟩, ?_⟩
    -- What follows the digits is the mark, and no integer goes on with it.
    by_contra hinteger
    rw [Bool.not_eq_false] at hinteger
    obtain ⟨-, himaginary⟩ := Numeral.digitsThen_eq_true_iff.1 hinteger
    rw [Numeral.dropWhile_isDigit_append hwhole.2 (by
      intro c tail hcons
      rw [← (List.cons.inj hcons).1]
      exact hdigit)] at himaginary
    have hi : mark = 'i' := by
      rcases Numeral.endsImaginary_iff.1 himaginary with hnil | himarker
      · exact absurd hnil (by simp)
      · exact (List.cons.inj himarker).1
    rcases hmark with rfl | rfl <;> exact absurd hi (by decide)

end TokenRule

/-! ## All together -/

/-- **The families of rules overlap in two ways only, and no line is decided by the order in which
they are tried.**  A line ends in at most one suffix; if it ends in one, no rule accepts its last
word; and a token is accepted by no rule, by one, by those of keywords and identifiers or by those
of integers and numbers with an exponent.  So the rules may be tried before the suffixes and each
family in any order, as long as keywords come before identifiers and integers before numbers with
an exponent.  Under the last rule those tokens are reported that do have an exponent. -/
theorem decideLine_independent_of_order :
    (∀ (line : Text) (suffix other : Suffix), suffix.endsLine line = true →
      other.endsLine line = true → suffix = other) ∧
    (∀ (line word : Text) (suffix : Suffix), suffix.endsLine line = true →
      lastWord? line = some word → ∀ rule : TokenRule, rule.accepts word = false) ∧
    (∀ token : Text, TokenRule.accepting token = ∅ ∨
      (∃ rule, TokenRule.accepting token = {rule}) ∨
      TokenRule.accepting token = {.reservedWord, .identifier} ∨
      TokenRule.accepting token = {.integer, .exponentNumber}) ∧
    (∀ (rulesFirst : Bool) (suffixes : List Suffix) (rules : List TokenRule) (line : Text),
      suffixes.Perm Suffix.all → rules.Perm TokenRule.all →
      rules.idxOf .reservedWord < rules.idxOf .identifier →
      rules.idxOf .integer < rules.idxOf .exponentNumber →
      decideInOrder rulesFirst suffixes rules line = decideLine line) ∧
    (∀ token : Text, TokenRule.find? token = some .exponentNumber ↔
      ∃ whole mark sign power marker, Grammar.Digits whole ∧ (mark = 'e' ∨ mark = 'E') ∧
        Grammar.Sign sign ∧ Grammar.Digits power ∧ Grammar.Imaginary marker ∧
        token = whole ++ mark :: (sign ++ power ++ marker)) := by
  refine ⟨fun _ _ _ => Suffix.eq_of_endsLine, fun _ _ _ => Suffix.not_accepts_of_endsLine,
    TokenRule.accepting_cases, ?_, fun _ => TokenRule.find?_eq_exponentNumber_iff_exists⟩
  intro rulesFirst suffixes rules line hsuffixes hrules hwords hnumbers
  have hpairs : TokenRule.KeepsPairs rules :=
    ⟨fun rule => hrules.mem_iff.2 rule.mem_all, hwords, hnumbers⟩
  exact decideInOrder_eq_decideLine rulesFirst
    (fun suffix => hsuffixes.mem_iff.2 suffix.mem_all) hpairs line

/-- With all rules tried backwards but for the two pairs, and before the suffixes, a keyword is
still reported as one, and a word with a call after it by its suffix. -/
theorem decideInOrder_backwards :
    decideInOrder true Suffix.all.reverse
      [.rawString, .doubleQuotedString, .leadingDotFloat, .decimalFloat, .hexLiteral, .integer,
        .exponentNumber, .reservedWord, .identifier] "	return".toList =
      .terminate (.token .reservedWord) ∧
    Suffix.closeParen.endsLine "go f(1e5)".toList = true ∧
    (∀ other : Suffix, other.endsLine "go f(1e5)".toList = true → other = .closeParen) ∧
    ∀ rule : TokenRule, rule.accepts "f(1e5)".toList = false := by
  have hends : Suffix.closeParen.endsLine "go f(1e5)".toList = true := by decide
  refine ⟨?_, hends, ?_, ?_⟩
  · rw [decideLine_independent_of_order.2.2.2.1 _ _ _ _ (by decide) (by decide) (by decide)
      (by decide)]
    decide
  · intro other hother
    exact decideLine_independent_of_order.1 _ _ _ hother hends
  · exact decideLine_independent_of_order.2.1 _ _ _ hends (by decide)

end Semicolon
