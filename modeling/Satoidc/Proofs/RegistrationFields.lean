import Satoidc.Foundation.HttpUrl
import Satoidc.ValidatorPatterns

/-! What the registration form accepts, as its page describes the fields, against the
regular expressions. Logins and passwords are as described. A nickname of two characters
is refused, since between its ends the expression wants a character, and four letters
outside ASCII pass for ASCII letters. -/

namespace Satoidc.Proofs.RegistrationFields
open Foundation Regex ValidatorPatterns

/-- A letter or digit of ASCII. -/
def alphanumeric (c : Char) : Bool := isAsciiAlpha c || isAsciiDigit c

structure LoginRule (login : String) : Prop where
  low : 6 ≤ login.length
  high : login.length ≤ 30
  all : ∀ c ∈ login.toList, isLower c = true ∨ isAsciiDigit c = true

/-- The characters of a nickname. -/
def Inner (c : Char) : Prop := alphanumeric c = true ∨ c = '.' ∨ c = '_' ∨ c = '-'

structure Named (nickname : List Char) : Prop where
  high : nickname.length ≤ 80
  all : ∀ c ∈ nickname, Inner c
  first : ∃ c, nickname.head? = some c ∧ alphanumeric c = true
  last : ∃ c, nickname.getLast? = some c ∧ alphanumeric c = true

/-- A nickname may be left out. -/
def NicknameRule (nickname : List Char) : Prop := nickname = [] ∨ Named nickname

structure PasswordRule (password : String) : Prop where
  low : 8 ≤ password.length
  high : password.length ≤ 128
  line : '\n' ∉ password.toList
  lower : ∃ c ∈ password.toList, isLower c = true
  upper : ∃ c ∈ password.toList, isUpper c = true
  digit : ∃ c ∈ password.toList, isDecimal c = true
  special : ∃ c ∈ password.toList, isLower c = false ∧ isUpper c = false ∧ isDecimal c = false

theorem isValidLogin_iff (login : String) : ValidatorPatterns.isValidLogin login = true ↔ LoginRule login := by
  rw [ValidatorPatterns.isValidLogin, loginRe, fullmatch_anchored, mem_repeated_one]
  constructor
  · rintro ⟨front, same, low, high, all⟩
    rw [List.append_nil] at same
    subst same
    rw [login.length_toList] at low high
    exact ⟨low, high, fun c member => (Bool.or_eq_true _ _).mp (all c member)⟩
  · intro rule
    refine ⟨login.toList, (List.append_nil _).symm, ?_, ?_, fun c member => (Bool.or_eq_true _ _).mpr (rule.all c member)⟩
    · exact login.length_toList ▸ rule.low
    · exact login.length_toList ▸ rule.high

section texts
variable {text rest later : List Char} {accepts : Char → Bool}

theorem dot_iff {c : Char} : dot c = true ↔ c ≠ '\n' := decide_eq_true_iff

/-- What a lookahead of the password finds, in a text of one line. -/
theorem mem_somewhere (line : '\n' ∉ rest) :
    later ∈ rests text (somewhere accepts) rest ↔ later = rest ∧ ∃ c ∈ rest, accepts c = true := by
  rw [somewhere, mem_ahead]
  apply and_congr_right
  intro _
  simp only [mem_seq, mem_many_one, mem_one]
  constructor
  · rintro ⟨_, _, ⟨front, rfl, -, -⟩, c, accepted, rfl⟩
    exact ⟨c, List.mem_append_right front List.mem_cons_self, accepted⟩
  · rintro ⟨c, member, accepted⟩
    obtain ⟨front, behind, rfl⟩ := List.append_of_mem member
    refine ⟨behind, c :: behind, ⟨front, rfl, Nat.zero_le _, ?_⟩, c, accepted, rfl⟩
    intro d inFront
    apply dot_iff.mpr
    rintro rfl
    exact line (List.mem_append_left _ inFront)

theorem passwordRe_iff : passwordRe.fullmatch text = true ↔
    '\n' ∉ text ∧ 8 ≤ text.length ∧ text.length ≤ 128 ∧ (∃ c ∈ text, isLower c = true) ∧
      (∃ c ∈ text, isUpper c = true) ∧
      (∃ c ∈ text, isDecimal c = true) ∧ ∃ c ∈ text, (!(isAsciiAlpha c || isDecimal c)) = true := by
  rw [passwordRe, fullmatch_anchored]
  -- a lookahead leaves the text as it was, and what follows the last one is one line
  by_cases line : '\n' ∈ text
  · refine iff_of_false ?_ fun accepted => accepted.1 line
    simp only [mem_seq, somewhere, mem_ahead]
    rintro ⟨_, ⟨rfl, -⟩, _, ⟨rfl, -⟩, _, ⟨rfl, -⟩, _, ⟨rfl, -⟩, matched⟩
    obtain ⟨front, same, -, -, all⟩ := mem_repeated_one.mp matched
    rw [List.append_nil] at same
    exact dot_iff.mp (all '\n' (same ▸ line)) rfl
  · simp only [mem_seq, mem_repeated_one]
    constructor
    · rintro ⟨_, lower, _, upper, _, digit, _, special, front, same, low, high, -⟩
      obtain ⟨rfl, lower⟩ := (mem_somewhere line).mp lower
      obtain ⟨rfl, upper⟩ := (mem_somewhere line).mp upper
      obtain ⟨rfl, digit⟩ := (mem_somewhere line).mp digit
      obtain ⟨rfl, special⟩ := (mem_somewhere line).mp special
      rw [List.append_nil] at same
      subst same
      exact ⟨line, low, high, lower, upper, digit, special⟩
    · rintro ⟨-, low, high, lower, upper, digit, special⟩
      refine ⟨text, (mem_somewhere line).mpr ⟨rfl, lower⟩, text, (mem_somewhere line).mpr ⟨rfl, upper⟩, text,
        (mem_somewhere line).mpr ⟨rfl, digit⟩, text, (mem_somewhere line).mpr ⟨rfl, special⟩, text,
        (List.append_nil _).symm, low, high, ?_⟩
      intro c member
      apply dot_iff.mpr
      rintro rfl
      exact line member

theorem isAsciiAlpha_eq (c : Char) : isAsciiAlpha c = (isLower c || isUpper c) := rfl

end texts

theorem isValidPassword_iff (password : String) :
    ValidatorPatterns.isValidPassword password = true ↔ PasswordRule password := by
  rw [ValidatorPatterns.isValidPassword, passwordRe_iff, password.length_toList]
  simp only [isAsciiAlpha_eq, Bool.not_eq_true', Bool.or_eq_false_iff, and_assoc]
  constructor
  · rintro ⟨line, low, high, lower, upper, digit, special⟩
    exact ⟨low, high, line, lower, upper, digit, special⟩
  · intro rule
    exact ⟨rule.line, rule.low, rule.high, rule.lower, rule.upper, rule.digit, rule.special⟩

/-- A nickname without the letters that fold into ASCII. -/
def plain (c : Char) : Char := if foldsIntoAscii c then 'a' else c

theorem isLower_toLower (c : Char) : isLower c.toLower = isAsciiAlpha c := by
  unfold Char.toLower
  split
  next upper =>
    simp only [isLower, isAsciiAlpha, Char.le_def]
    grind
  next other =>
    simp only [isLower, isAsciiAlpha, Char.le_def]
    grind

theorem isAsciiDigit_toLower (c : Char) : isAsciiDigit c.toLower = isAsciiDigit c := by
  unfold Char.toLower
  split
  next upper =>
    simp only [isAsciiDigit, Char.le_def]
    grind
  next => rfl

theorem lowerOrDigit_toLower (c : Char) : lowerOrDigit c.toLower = alphanumeric c := by
  rw [lowerOrDigit, isLower_toLower, isAsciiDigit_toLower, alphanumeric]

theorem ignoringCase_lowerOrDigit (c : Char) : ignoringCase lowerOrDigit c = alphanumeric (plain c) := by
  cases folded : foldsIntoAscii c with
  | true =>
    rw [ignoringCase_folded folded rfl rfl rfl, plain, if_pos folded]
    rfl
  | false => rw [ignoringCase_ordinary folded, lowerOrDigit_toLower, plain, if_neg (by rw [folded]; exact Bool.false_ne_true)]

theorem toLower_mark {c mark : Char} (caseless : isAsciiAlpha mark = false) : c.toLower = mark ↔ c = mark := by
  constructor
  · intro lowered
    exact toLower_eq_caseless lowered caseless
  · rintro rfl
    have unchanged := toLower_eq_caseless (d := c.toLower) rfl (by rw [isAsciiAlpha_toLower]; exact caseless)
    exact unchanged.symm

theorem ignoringCase_lowerDigitOrMark (c : Char) : ignoringCase lowerDigitOrMark c = true ↔ Inner (plain c) := by
  cases folded : foldsIntoAscii c with
  | true =>
    rw [ignoringCase_folded folded rfl rfl rfl, plain, if_pos folded]
    exact iff_of_true rfl (.inl rfl)
  | false =>
    rw [ignoringCase_ordinary folded, plain, if_neg (by rw [folded]; exact Bool.false_ne_true)]
    simp only [lowerDigitOrMark, lowerOrDigit_toLower, Bool.or_eq_true, decide_eq_true_eq, or_assoc]
    rw [toLower_mark (by decide), toLower_mark (by decide), toLower_mark (by decide), Inner]

section nicknames
variable {text : List Char} {c first last : Char} {middle : List Char}

theorem nicknameRe_nil : nicknameRe.fullmatch [] = false := by
  apply Bool.eq_false_iff.mpr
  rw [nicknameRe, Ne, fullmatch_anchored, mem_seq]
  rintro ⟨_, head, -⟩
  obtain ⟨c, -, impossible⟩ := mem_one.mp head
  cases impossible

theorem nicknameRe_single : nicknameRe.fullmatch [c] = true ↔ alphanumeric (plain c) = true := by
  rw [nicknameRe, fullmatch_anchored, ← ignoringCase_lowerOrDigit]
  simp only [mem_seq, mem_one, mem_optional]
  constructor
  · rintro ⟨_, ⟨d, accepted, same⟩, -⟩
    obtain ⟨rfl, -⟩ := List.cons.inj same
    exact accepted
  · intro accepted
    exact ⟨[], ⟨c, accepted, rfl⟩, .inl rfl⟩

theorem nicknameRe_ends : nicknameRe.fullmatch (first :: (middle ++ [last])) = true ↔
    alphanumeric (plain first) = true ∧ 1 ≤ middle.length ∧ middle.length ≤ 78 ∧ (∀ c ∈ middle, Inner (plain c)) ∧
      alphanumeric (plain last) = true := by
  rw [nicknameRe, fullmatch_anchored]
  simp only [mem_seq, mem_one, mem_optional, mem_repeated_one, ignoringCase_lowerOrDigit, ignoringCase_lowerDigitOrMark]
  constructor
  · rintro ⟨rest, ⟨d, start, same⟩, impossible | ⟨_, ⟨front, split, low, high, all⟩, e, finish, rfl⟩⟩
    · obtain ⟨-, rfl⟩ := List.cons.inj same
      exact absurd impossible (by simp)
    · obtain ⟨rfl, rfl⟩ := List.cons.inj same
      obtain ⟨rfl, ends⟩ := List.append_inj' split rfl
      cases ends
      exact ⟨start, low, high, all, finish⟩
  · rintro ⟨start, low, high, all, finish⟩
    exact ⟨middle ++ [last], ⟨first, start, rfl⟩, .inr ⟨[last], ⟨middle, rfl, low, high, all⟩, last, finish, rfl⟩⟩

theorem named_single : Named [c] ↔ alphanumeric c = true := by
  constructor
  · intro named
    obtain ⟨d, same, letter⟩ := named.first
    cases same
    exact letter
  · intro letter
    exact ⟨by simp, fun d member => List.mem_singleton.mp member ▸ .inl letter, ⟨c, rfl, letter⟩, ⟨c, rfl, letter⟩⟩

theorem named_ends : Named (first :: (middle ++ [last])) ↔
    alphanumeric first = true ∧ middle.length ≤ 78 ∧ (∀ c ∈ middle, Inner c) ∧ alphanumeric last = true := by
  have ends : (first :: (middle ++ [last])).getLast? = some last := by rw [← List.cons_append, List.getLast?_concat]
  constructor
  · rintro ⟨high, all, ⟨d, same, start⟩, ⟨e, same', finish⟩⟩
    rw [ends] at same'
    cases same
    cases same'
    rw [List.length_cons, List.length_append, List.length_singleton] at high
    exact ⟨start, by omega, fun c member => all c (List.mem_cons_of_mem _ (List.mem_append_left _ member)), finish⟩
  · rintro ⟨start, high, all, finish⟩
    refine ⟨?_, ?_, ⟨first, rfl, start⟩, ⟨last, ends, finish⟩⟩
    · rw [List.length_cons, List.length_append, List.length_singleton]
      omega
    · intro c member
      rcases List.mem_cons.mp member with rfl | member
      · exact .inl start
      · rcases List.mem_append.mp member with member | member
        · exact all c member
        · exact List.mem_singleton.mp member ▸ .inl finish

theorem nicknameRe_iff : nicknameRe.fullmatch text = true ↔ text.length ≠ 2 ∧ Named (text.map plain) := by
  cases text with
  | nil =>
    rw [nicknameRe_nil]
    apply iff_of_false Bool.false_ne_true
    rintro ⟨-, named⟩
    obtain ⟨c, impossible, -⟩ := named.first
    cases impossible
  | cons first rest =>
    -- the optional group is missing, or it ends with the last character
    rcases rest.eq_nil_or_concat with rfl | ⟨middle, last, rfl⟩
    · rw [nicknameRe_single, List.map_singleton, named_single]
      exact (and_iff_right (by simp)).symm
    · rw [List.concat_eq_append, nicknameRe_ends, List.map_cons, List.map_append, List.map_singleton, named_ends]
      simp only [List.length_cons, List.length_append, List.length_nil, List.length_map, List.forall_mem_map]
      constructor
      · rintro ⟨start, low, high, all, finish⟩
        exact ⟨by omega, start, high, all, finish⟩
      · rintro ⟨length, start, high, all, finish⟩
        exact ⟨start, by omega, high, all, finish⟩

end nicknames

theorem isValidNickname_iff (nickname : String) : ValidatorPatterns.isValidNickname nickname = true ↔
    nickname.length ≠ 2 ∧ NicknameRule (nickname.toList.map plain) := by
  unfold ValidatorPatterns.isValidNickname
  rw [← nickname.length_toList, NicknameRule, List.map_eq_nil_iff]
  split
  next given =>
    have nonempty : nickname.toList ≠ [] := List.ne_nil_of_length_pos given
    rw [nicknameRe_iff, or_iff_right nonempty]
  next missing =>
    have empty : nickname.toList = [] := List.eq_nil_of_length_eq_zero (by omega)
    exact iff_of_true rfl ⟨by rw [empty]; decide, .inl empty⟩

theorem inner_ordinary {c : Char} (inner : Inner c) : foldsIntoAscii c = false := by
  have bound : c.toNat < 0x130 := by
    rcases inner with letter | rfl | rfl | rfl
    · have z : 'z'.toNat = 122 := rfl
      have Z : 'Z'.toNat = 90 := rfl
      have nine : '9'.toNat = 57 := rfl
      have high : c.toNat ≤ 'z'.toNat ∨ c.toNat ≤ 'Z'.toNat ∨ c.toNat ≤ '9'.toNat := by
        simp only [alphanumeric, isAsciiAlpha, isAsciiDigit, Bool.or_eq_true, Bool.and_eq_true, decide_eq_true_eq] at letter
        rcases letter with (⟨-, high⟩ | ⟨-, high⟩) | ⟨-, high⟩
        · exact .inl (UInt32.le_iff_toNat_le.mp (Char.le_def.mp high))
        · exact .inr (.inl (UInt32.le_iff_toNat_le.mp (Char.le_def.mp high)))
        · exact .inr (.inr (UInt32.le_iff_toNat_le.mp (Char.le_def.mp high)))
      omega
    · decide
    · decide
    · decide
  simp only [foldsIntoAscii, Bool.or_eq_false_iff, decide_eq_false_iff_not]
  omega

theorem map_plain {text : List Char} (ordinary : ∀ c ∈ text, foldsIntoAscii c = false) : text.map plain = text := by
  refine (List.map_congr_left ?_).trans text.map_id
  intro c member
  rw [plain, ordinary c member]
  rfl

/-- The letters that fold into ASCII are the only ones that the description leaves out. -/
theorem nicknameRule_iff {text : List Char} :
    NicknameRule text ↔ NicknameRule (text.map plain) ∧ ∀ c ∈ text, foldsIntoAscii c = false := by
  constructor
  · intro rule
    have ordinary : ∀ c ∈ text, foldsIntoAscii c = false := by
      rcases rule with rfl | named
      · exact fun c member => absurd member List.not_mem_nil
      · exact fun c member => inner_ordinary (named.all c member)
    rw [map_plain ordinary]
    exact ⟨rule, ordinary⟩
  · rintro ⟨rule, ordinary⟩
    rw [map_plain ordinary] at rule
    exact rule

/-- The expressions accept what the form's model calls valid. -/
theorem isValidLogin_eq (login : String) : ValidatorPatterns.isValidLogin login = Satoidc.isValidLogin login := by
  rw [Bool.eq_iff_iff, isValidLogin_iff, Satoidc.isValidLogin]
  simp only [Bool.and_eq_true, decide_eq_true_eq, List.all_eq_true, Bool.or_eq_true, and_assoc]
  exact ⟨fun rule => ⟨rule.low, rule.high, rule.all⟩, fun ⟨low, high, all⟩ => ⟨low, high, all⟩⟩

theorem isValidPassword_eq (password : String) :
    ValidatorPatterns.isValidPassword password = Satoidc.isValidPassword password := by
  rw [Bool.eq_iff_iff, ValidatorPatterns.isValidPassword, passwordRe_iff, Satoidc.isValidPassword, password.length_toList]
  simp only [Bool.and_eq_true, decide_eq_true_eq, List.any_eq_true, Bool.not_or, and_assoc]
  constructor
  · rintro ⟨line, low, high, rest⟩
    exact ⟨low, high, line, rest⟩
  · rintro ⟨low, high, line, rest⟩
    exact ⟨line, low, high, rest⟩

theorem isNicknameEdge_eq (c : Char) : isNicknameEdge c = alphanumeric (plain c) := by
  cases folded : foldsIntoAscii c with
  | true =>
    rw [plain, if_pos folded, isNicknameEdge]
    simp only [foldsIntoAscii, Bool.or_assoc] at folded
    simp only [Bool.or_assoc, folded, Bool.or_true]
    rfl
  | false =>
    rw [plain, if_neg (by rw [folded]; exact Bool.false_ne_true), isNicknameEdge, alphanumeric]
    simp only [foldsIntoAscii, Bool.or_assoc] at folded
    simp only [Bool.or_assoc, folded, Bool.or_false]

theorem isNicknameInner_iff (c : Char) : isNicknameInner c = true ↔ Inner (plain c) := by
  simp only [isNicknameInner, isNicknameEdge_eq, Inner, Bool.or_eq_true, decide_eq_true_eq, or_assoc]
  cases folded : foldsIntoAscii c with
  | true =>
    rw [plain, if_pos folded]
    exact iff_of_true (.inl rfl) (.inl rfl)
  | false => rw [plain, if_neg (by rw [folded]; exact Bool.false_ne_true)]

theorem isValidNickname_eq (nickname : String) :
    ValidatorPatterns.isValidNickname nickname = Satoidc.isValidNickname nickname := by
  rw [Bool.eq_iff_iff, isValidNickname_iff, Satoidc.isValidNickname, ← nickname.length_toList, NicknameRule, List.map_eq_nil_iff]
  split
  next empty => simp [empty]
  next only single =>
    rw [single, List.map_singleton, named_single, isNicknameEdge_eq]
    simp
  next first rest long start =>
    rcases rest.eq_nil_or_concat with rfl | ⟨middle, last, rfl⟩
    · exact (long rfl).elim
    · rw [start, List.concat_eq_append, List.map_cons, List.map_append, List.map_singleton, named_ends]
      simp only [isNicknameEdge_eq, isNicknameInner_iff, List.length_cons, List.length_append, List.length_nil, List.length_map,
        List.forall_mem_map, List.dropLast_concat, List.getLast?_concat, Option.any_some, Bool.and_eq_true,
        decide_eq_true_eq, List.all_eq_true, reduceCtorEq, false_or]
      constructor
      · rintro ⟨length, first, high, all, last⟩
        exact ⟨⟨⟨⟨first, by omega⟩, by omega⟩, all⟩, last⟩
      · rintro ⟨⟨⟨⟨first, low⟩, high⟩, all⟩, last⟩
        exact ⟨by omega, first, by omega, all, last⟩

/-- A pass over checks reports the ones that failed. -/
theorem mem_rejected {checks : List (String × Bool × String)} {field message : String} :
    (field, message) ∈ (checks.filterMap fun (field, valid, message) => if valid then none else some (field, message)) ↔
      (field, false, message) ∈ checks := by
  rw [List.mem_filterMap]
  constructor
  · rintro ⟨⟨name, valid, text⟩, entry, reported⟩
    cases valid with
    | true => cases reported
    | false =>
      cases reported
      exact entry
  · intro entry
    exact ⟨(field, false, message), entry, rfl⟩

section form
variable (isValidEmail : String → Bool) (login nickname password email : String)

/-- The validator of a field rejects its text. -/
def Rejected (field : String) : Prop :=
  (field = "login" ∧ ValidatorPatterns.isValidLogin login = false) ∨
  (field = "nickname" ∧ ValidatorPatterns.isValidNickname nickname = false) ∨
  (field = "password" ∧ ValidatorPatterns.isValidPassword password = false) ∨
  (field = "email" ∧ isValidEmail email = false)

theorem reported_iff (field : String) :
    (∃ message, (field, message) ∈ validateRegistrationForm isValidEmail login nickname password email) ↔
      Rejected isValidEmail login nickname password email field := by
  rw [validateRegistrationForm, Rejected, isValidLogin_eq, isValidNickname_eq, isValidPassword_eq]
  simp only [mem_rejected, List.mem_cons, Prod.mk.injEq, List.not_mem_nil, or_false, exists_or, exists_and_left, exists_eq,
    and_true, Bool.false_eq]

/-- The validators accept the described texts, and the form reports what they reject. -/
structure AsDescribed : Prop where
  logins : ValidatorPatterns.isValidLogin login = true ↔ LoginRule login
  nicknames : ValidatorPatterns.isValidNickname nickname = true ↔ NicknameRule nickname.toList
  passwords : ValidatorPatterns.isValidPassword password = true ↔ PasswordRule password
  reported : ∀ field, (∃ message, (field, message) ∈ validateRegistrationForm isValidEmail login nickname password email) ↔
    Rejected isValidEmail login nickname password email field

/-- Two characters as described, which the expression refuses. -/
def TwoCharacters : Prop := nickname.length = 2 ∧ NicknameRule nickname.toList

/-- As described but for letters that fold into ASCII, which the expression lets pass. -/
def Folding : Prop :=
  nickname.length ≠ 2 ∧ (∃ c ∈ nickname.toList, foldsIntoAscii c = true) ∧ NicknameRule (nickname.toList.map plain)

/-- The fields are as described unless the nickname is one of these. -/
theorem as_described_iff : AsDescribed isValidEmail login nickname password email ↔
    ¬TwoCharacters nickname ∧ ¬Folding nickname := by
  constructor
  · intro described
    have agree := described.nicknames
    rw [isValidNickname_iff] at agree
    constructor
    · rintro ⟨two, rule⟩
      exact (agree.mpr rule).1 two
    · rintro ⟨length, ⟨c, member, folds⟩, rule⟩
      have ordinary := (nicknameRule_iff.mp (agree.mp ⟨length, rule⟩)).2 c member
      rw [ordinary] at folds
      cases folds
  · rintro ⟨longer, unfolded⟩
    refine ⟨isValidLogin_iff login, ?_, isValidPassword_iff password, reported_iff isValidEmail login nickname password email⟩
    rw [isValidNickname_iff]
    constructor
    · rintro ⟨length, rule⟩
      refine nicknameRule_iff.mpr ⟨rule, fun c member => ?_⟩
      by_contra folds
      exact unfolded ⟨length, ⟨c, member, Bool.not_eq_false _ ▸ folds⟩, rule⟩
    · intro rule
      exact ⟨fun two => longer ⟨two, rule⟩, (nicknameRule_iff.mp rule).1⟩

end form

/-- Two letters are refused, and a long s passes for an s. -/
theorem two_letters_refused :
    ¬AsDescribed (fun _ => true) "satoshi1" "ab" "StrongPass1!" "satoshi@example.com" ∧
      ¬AsDescribed (fun _ => true) "satoshi1" "ſatoshi" "StrongPass1!" "satoshi@example.com" := by
  constructor
  · intro described
    have refused : ValidatorPatterns.isValidNickname "ab" = false := by decide +kernel
    have named : Named ('a' :: ([] ++ ['b'])) := named_ends.mpr ⟨rfl, Nat.zero_le _, List.forall_mem_nil _, rfl⟩
    rw [described.nicknames.mpr (.inr named)] at refused
    cases refused
  · intro described
    have accepted : ValidatorPatterns.isValidNickname "ſatoshi" = true := by decide +kernel
    rcases described.nicknames.mp accepted with empty | named
    · cases empty
    · obtain ⟨c, first, letter⟩ := named.first
      cases first
      exact absurd letter (by decide)

end Satoidc.Proofs.RegistrationFields
