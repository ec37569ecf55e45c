import ChainClient.Json.Parser
import ChainClient.Proofs.Json.Numbers
import ChainClient.Proofs.Json.Strings

/-! The lexemes of a written JSON value. -/

namespace ChainClient.Json

namespace Lexer

/-- A text starts with a lexeme, and this is what follows it. -/
def Lexes (text : List Char) (token : Token) (rest : List Char) : Prop :=
  ∃ hrest, next? text = some (token, ⟨rest, hrest⟩)

theorem lexes_null (rest : List Char) :
    Lexes ('n' :: 'u' :: 'l' :: 'l' :: rest) .null rest :=
  ⟨_, rfl⟩

theorem lexes_true (rest : List Char) :
    Lexes ('t' :: 'r' :: 'u' :: 'e' :: rest) (.bool true) rest :=
  ⟨_, rfl⟩

theorem lexes_false (rest : List Char) :
    Lexes ('f' :: 'a' :: 'l' :: 's' :: 'e' :: rest) (.bool false) rest :=
  ⟨_, rfl⟩

theorem lexes_string {text rest : List Char} {parts : List Part}
    (h : parts? text = some (parts, rest)) :
    Lexes ('"' :: text) (stringToken parts) rest := by
  refine ⟨Nat.lt_succ_of_lt (parts?_length h), ?_⟩
  rw [next?]
  split
  case h_1 found tail hfound =>
    obtain ⟨rfl, rfl⟩ := Prod.mk.inj (Option.some.inj (hfound.symm.trans h))
    rfl
  case h_2 hnone => exact absurd (hnone.symm.trans h) (by simp)

theorem lexes_negative {text rest : List Char} {numeral : Numeral}
    (h : numeral? true text = some (numeral, rest)) :
    Lexes ('-' :: text) (.number numeral.read?) rest := by
  refine ⟨Nat.lt_succ_of_lt (numeral?_length h), ?_⟩
  rw [next?]
  split
  case h_1 found tail hfound =>
    obtain ⟨rfl, rfl⟩ := Prod.mk.inj (Option.some.inj (hfound.symm.trans h))
    rfl
  case h_2 hnone => exact absurd (hnone.symm.trans h) (by simp)

/-- The characters that texts, words and negative numbers start with. -/
def leaders : List Char := ['"', 't', 'f', 'n', '-']

theorem lexes_punctuation {c : Char} {token : Token} (h : punctuation? c = some token)
    (rest : List Char) : Lexes (c :: rest) token rest := by
  have hc : c ∉ leaders := by
    intro hmem
    fin_cases hmem <;> cases h
  simp only [leaders, List.mem_cons, List.not_mem_nil, or_false, not_or] at hc
  refine ⟨Nat.lt_succ_self rest.length, ?_⟩
  rw [next?]
  · split
    case h_1 found hfound =>
      obtain rfl := Option.some.inj (hfound.symm.trans h)
      rfl
    case h_2 hnone => exact absurd (hnone.symm.trans h) (by simp)
  all_goals simp [hc]

theorem isDigit_of_punctuation {c : Char} {token : Token}
    (h : punctuation? c = some token) : isDigit c = false := by
  unfold punctuation? at h
  split at h
  case h_7 => cases h
  all_goals rfl

theorem lexes_digits {c : Char} {text rest : List Char} {numeral : Numeral}
    (hdigit : isDigit c = true) (h : numeral? false (c :: text) = some (numeral, rest)) :
    Lexes (c :: text) (.number numeral.read?) rest := by
  have hc : c ∉ leaders := by
    intro hmem
    fin_cases hmem <;> exact absurd hdigit (by decide)
  simp only [leaders, List.mem_cons, List.not_mem_nil, or_false, not_or] at hc
  refine ⟨numeral?_length h, ?_⟩
  rw [next?]
  · split
    case h_1 token htoken => simp [isDigit_of_punctuation htoken] at hdigit
    case h_2 =>
      rw [if_pos hdigit]
      split
      case h_1 found tail hfound =>
        obtain ⟨rfl, rfl⟩ := Prod.mk.inj (Option.some.inj (hfound.symm.trans h))
        rfl
      case h_2 hnone => exact absurd (hnone.symm.trans h) (by simp)
  all_goals simp [hc]

/-! Written strings and integers. -/

theorem lexes_quoted (text : String) (rest : List Char) :
    Lexes (quoted text ++ rest) (.string (some text)) rest := by
  have hquoted : quoted text ++ rest =
      '"' :: (text.toList.flatMap escapeChar ++ '"' :: rest) := by
    simp [quoted]
  have htoken : stringToken (text.toList.map partOf) = .string (some text) := by
    rw [stringToken, joinUnits?_map_partOf, Option.map_some, String.ofList_toList]
  rw [hquoted, ← htoken]
  exact lexes_string (parts?_flatMap_escapeChar text.toList rest)

theorem lexes_intText {n : Int} (hlow : -2 ^ 63 ≤ n) (hhigh : n < 2 ^ 64) {rest : List Char}
    (hrest : EndsNumber rest) :
    Lexes (Number.intText n ++ rest) (.number (some (.int n))) rest := by
  rw [Number.intText]
  split
  case isTrue hnegative =>
    have hread := Numeral.read?_numeralOf_negative (n := n.natAbs) (by omega) (by omega)
    rw [show -((n.natAbs : Nat) : Int) = n by omega] at hread
    rw [← hread]
    exact lexes_negative (numeral?_toDigits true n.natAbs hrest)
  case isFalse hnegative =>
    have hread := Numeral.read?_numeralOf (n := n.natAbs) (by omega)
    rw [show ((n.natAbs : Nat) : Int) = n by omega] at hread
    have hnumeral := numeral?_toDigits false n.natAbs hrest
    obtain ⟨c, others, htext⟩ := List.exists_cons_of_ne_nil
      (Nat.toDigits_ne_nil (n := n.natAbs) (b := 10))
    have hdigit : isDigit c = true :=
      isDigit_of_mem_toDigits (n := n.natAbs) (by simp [htext])
    rw [Number.digitsText, ← hread]
    rw [htext] at hnumeral ⊢
    exact lexes_digits hdigit hnumeral

theorem isBlank_of_lexes {c : Char} {text rest : List Char} {token : Token}
    (h : Lexes (c :: text) token rest) : isBlank c = false := by
  obtain ⟨_, h⟩ := h
  by_contra hblank
  simp only [Bool.not_eq_false, isBlank, Bool.or_eq_true, decide_eq_true_eq] at hblank
  rcases hblank with ((rfl | rfl) | rfl) | rfl <;> cases h

theorem tokens?_of_lexes {text rest : List Char} {token : Token}
    (h : Lexes text token rest) : tokens? text = (tokens? rest).map (token :: ·) := by
  cases text with
  | nil =>
      obtain ⟨hrest, _⟩ := h
      exact absurd hrest (Nat.not_lt_zero _)
  | cons c text =>
      have hblank := isBlank_of_lexes h
      obtain ⟨_, hnext⟩ := h
      rw [tokens?, hblank, hnext]
      rfl

end Lexer

mutual

/-- Numbers are integers of 64 bits, and no object repeats a name. -/
def Exact : Json → Prop
  | .number (.int n) => -2 ^ 63 ≤ n ∧ n < 2 ^ 64
  | .number (.real ..) => False
  | .array items => ItemsExact items
  | .object members => (members.map Prod.fst).Nodup ∧ MembersExact members
  | .null | .bool _ | .string _ => True

def ItemsExact : List Json → Prop
  | [] => True
  | item :: rest => item.Exact ∧ ItemsExact rest

def MembersExact : List (String × Json) → Prop
  | [] => True
  | (_, member) :: rest => member.Exact ∧ MembersExact rest

end

mutual

/-- The lexemes that a value is written in. -/
def tokens : Json → List Token
  | .null => [.null]
  | .bool b => [.bool b]
  | .number n => [.number (some n)]
  | .string text => [.string (some text)]
  | .array [] => [.openArray, .closeArray]
  | .array (item :: rest) => .openArray :: item.tokens ++ itemsTokens rest
  | .object [] => [.openObject, .closeObject]
  | .object ((name, member) :: rest) =>
      .openObject :: .string (some name) :: .colon :: member.tokens ++ membersTokens rest

def itemsTokens : List Json → List Token
  | [] => [.closeArray]
  | item :: rest => .comma :: item.tokens ++ itemsTokens rest

def membersTokens : List (String × Json) → List Token
  | [] => [.closeObject]
  | (name, member) :: rest =>
      .comma :: .string (some name) :: .colon :: member.tokens ++ membersTokens rest

end

/-- A text is split into these lexemes before the rest, whatever comes of the rest. -/
def Spells (text : List Char) (found : List Token) (rest : List Char) : Prop :=
  tokens? text = (tokens? rest).map (found ++ ·)

theorem spells_cons {text middle rest : List Char} {token : Token} {found : List Token}
    (hfirst : Lexer.Lexes text token middle) (hrest : Spells middle found rest) :
    Spells text (token :: found) rest := by
  rw [Spells, Lexer.tokens?_of_lexes hfirst, hrest, Option.map_map]
  rfl

theorem spells_single {text rest : List Char} {token : Token}
    (h : Lexer.Lexes text token rest) : Spells text [token] rest :=
  Lexer.tokens?_of_lexes h

theorem spells_append {text middle rest : List Char} {first second : List Token}
    (hfirst : Spells text first middle) (hsecond : Spells middle second rest) :
    Spells text (first ++ second) rest := by
  rw [Spells, hfirst, hsecond, Option.map_map]
  congr 1
  funext found
  exact (List.append_assoc first second found).symm

theorem endsNumber_itemsChars (items : List Json) (rest : List Char) :
    EndsNumber (itemsChars items ++ rest) := by
  cases items with
  | nil => exact ⟨rfl, by decide⟩
  | cons item items => exact ⟨rfl, by decide⟩

theorem endsNumber_membersChars (members : List (String × Json)) (rest : List Char) :
    EndsNumber (membersChars members ++ rest) := by
  cases members with
  | nil => exact ⟨rfl, by decide⟩
  | cons member members => exact ⟨rfl, by decide⟩

mutual

theorem spells_chars (json : Json) (h : json.Exact) {rest : List Char}
    (hrest : EndsNumber rest) : Spells (json.chars ++ rest) json.tokens rest := by
  cases json with
  | null => exact spells_single (Lexer.lexes_null rest)
  | bool b =>
      cases b with
      | true => exact spells_single (Lexer.lexes_true rest)
      | false => exact spells_single (Lexer.lexes_false rest)
  | number n =>
      cases n with
      | int n => exact spells_single (Lexer.lexes_intText h.1 h.2 hrest)
      | real negative magnitude => cases h
  | string text => exact spells_single (Lexer.lexes_quoted text rest)
  | array items =>
      cases items with
      | nil =>
          exact spells_cons (Lexer.lexes_punctuation rfl _)
            (spells_single (Lexer.lexes_punctuation rfl rest))
      | cons item items =>
          simp only [chars, tokens, List.cons_append, List.append_assoc]
          apply spells_cons (Lexer.lexes_punctuation rfl _)
          exact spells_append (spells_chars item h.1 (endsNumber_itemsChars items rest))
            (spells_itemsChars items h.2 rest)
  | object members =>
      cases members with
      | nil =>
          exact spells_cons (Lexer.lexes_punctuation rfl _)
            (spells_single (Lexer.lexes_punctuation rfl rest))
      | cons member members =>
          obtain ⟨name, member⟩ := member
          simp only [chars, tokens, List.cons_append, List.append_assoc]
          apply spells_cons (Lexer.lexes_punctuation rfl _)
          apply spells_cons (Lexer.lexes_quoted name _)
          apply spells_cons (Lexer.lexes_punctuation rfl _)
          exact spells_append (spells_chars member h.2.1
            (endsNumber_membersChars members rest))
            (spells_membersChars members h.2.2 rest)

theorem spells_itemsChars (items : List Json) (h : ItemsExact items) (rest : List Char) :
    Spells (itemsChars items ++ rest) (itemsTokens items) rest := by
  cases items with
  | nil => exact spells_single (Lexer.lexes_punctuation rfl rest)
  | cons item items =>
      simp only [itemsChars, itemsTokens, List.cons_append, List.append_assoc]
      apply spells_cons (Lexer.lexes_punctuation rfl _)
      exact spells_append (spells_chars item h.1 (endsNumber_itemsChars items rest))
        (spells_itemsChars items h.2 rest)

theorem spells_membersChars (members : List (String × Json)) (h : MembersExact members)
    (rest : List Char) :
    Spells (membersChars members ++ rest) (membersTokens members) rest := by
  cases members with
  | nil => exact spells_single (Lexer.lexes_punctuation rfl rest)
  | cons member members =>
      obtain ⟨name, member⟩ := member
      simp only [membersChars, membersTokens, List.cons_append, List.append_assoc]
      apply spells_cons (Lexer.lexes_punctuation rfl _)
      apply spells_cons (Lexer.lexes_quoted name _)
      apply spells_cons (Lexer.lexes_punctuation rfl _)
      exact spells_append (spells_chars member h.1 (endsNumber_membersChars members rest))
        (spells_membersChars members h.2 rest)

end

/-- A written value is split into its lexemes. -/
theorem tokens?_chars {json : Json} (h : json.Exact) :
    tokens? json.chars = some json.tokens := by
  have hspells : Spells (json.chars ++ []) json.tokens [] := spells_chars json h trivial
  rw [Spells, List.append_nil, tokens?, Option.map_some, List.append_nil] at hspells
  exact hspells

end ChainClient.Json
