import ChainClient.Proofs.Json.RoundTrip

/-! Text that starts like an array or an object is read as one, or not at all. -/

namespace ChainClient.Json

/-- An array or an object. -/
inductive IsContainer : Json → Prop
  | array (items : List Json) : IsContainer (.array items)
  | object (members : List (String × Json)) : IsContainer (.object members)

inductive Written.IsContainer : Written → Prop
  | array (items : List Written) : IsContainer (.array items)
  | object (members : List (Option String × Written)) : IsContainer (.object members)

theorem Written.isContainer_of_toJson? {written : Written} (h : written.IsContainer)
    {budget : Nat} {json : Json} (hjson : written.toJson? budget = some json) :
    json.IsContainer := by
  cases h with
  | array items =>
      rw [toJson?] at hjson
      split at hjson
      case isTrue => cases hjson
      case isFalse =>
        obtain ⟨found, -, rfl⟩ := Option.map_eq_some_iff.mp hjson
        exact .array found
  | object members =>
      rw [toJson?] at hjson
      split at hjson
      case isTrue => cases hjson
      case isFalse =>
        obtain ⟨found, -, rfl⟩ := Option.map_eq_some_iff.mp hjson
        exact .object found

namespace Reading

variable {token : Token} {frames : List Frame} {reading next : Reading}

/-- What is read stands in a container: one is still open, or it is the result. -/
def Enclosed (reading : Reading) : Prop :=
  match reading.expected with
  | .nothing written => written.IsContainer
  | _ => reading.frames ≠ []

theorem enclosed_of_finish? {value : Written} (hvalue : frames ≠ [] ∨ value.IsContainer)
    (h : finish? value frames = some next) : next.Enclosed := by
  match frames with
  | [] =>
      cases h
      exact hvalue.resolve_left (absurd rfl)
  | .array items :: _ =>
      cases h
      exact List.cons_ne_nil _ _
  | .member members name? :: _ =>
      cases h
      exact List.cons_ne_nil _ _

theorem enclosed_of_close? (h : close? token frames = some next) : next.Enclosed := by
  unfold close? at h
  split at h
  case h_1 items _ =>
    split at h
    case h_1 => exact enclosed_of_finish? (.inr (.array items.reverse)) h
    case h_2 => cases h
  case h_2 members _ =>
    split at h
    case h_1 => exact enclosed_of_finish? (.inr (.object members.reverse)) h
    case h_2 => cases h
  case h_3 => cases h

theorem enclosed_of_value? (hframes : frames ≠ []) (h : value? token frames = some next) :
    next.Enclosed := by
  cases token with
  | null => exact enclosed_of_finish? (.inl hframes) h
  | bool b => exact enclosed_of_finish? (.inl hframes) h
  | number value? => exact enclosed_of_finish? (.inl hframes) h
  | string value? => exact enclosed_of_finish? (.inl hframes) h
  | openArray =>
      cases h
      exact List.cons_ne_nil _ _
  | openObject =>
      cases h
      exact List.cons_ne_nil _ _
  | _ => cases h

theorem enclosed_of_name? (h : name? token frames = some next) : next.Enclosed := by
  unfold name? at h
  split at h
  case h_1 =>
    cases h
    exact List.cons_ne_nil _ _
  case h_2 => cases h

theorem enclosed_of_step? (hreading : reading.Enclosed)
    (h : step? reading token = some next) : next.Enclosed := by
  obtain ⟨frames, expected⟩ := reading
  cases expected with
  | value => exact enclosed_of_value? hreading h
  | valueOrClose =>
      simp only [step?] at h
      split at h
      case h_1 => exact enclosed_of_close? h
      case h_2 => exact enclosed_of_value? hreading h
  | name => exact enclosed_of_name? h
  | nameOrClose =>
      simp only [step?] at h
      split at h
      case h_1 => exact enclosed_of_close? h
      case h_2 => exact enclosed_of_name? h
  | colon =>
      simp only [step?] at h
      split at h
      case h_1 =>
        cases h
        exact hreading
      case h_2 => cases h
  | commaOrClose =>
      simp only [step?] at h
      split at h
      case h_1 =>
        cases h
        exact hreading
      case h_2 =>
        cases h
        exact hreading
      case h_3 => exact enclosed_of_close? h
  | nothing result => cases h

theorem enclosed_of_readAll? {found : List Token} (hreading : reading.Enclosed)
    (h : readAll? reading found = some next) : next.Enclosed := by
  induction found generalizing reading with
  | nil =>
      cases h
      exact hreading
  | cons token found ih =>
      rw [readAll?_cons] at h
      obtain ⟨middle, hmiddle, h⟩ := Option.bind_eq_some_iff.mp h
      exact ih (enclosed_of_step? hreading hmiddle) h

theorem isContainer_of_result? (hreading : reading.Enclosed) {written : Written}
    (h : reading.result? = some written) : written.IsContainer := by
  obtain ⟨frames, expected⟩ := reading
  cases expected with
  | nothing result =>
      cases h
      exact hreading
  | _ => cases h

end Reading

theorem isContainer_of_parse? {c : Char} (hc : c = '[' ∨ c = '\x7b') {rest : List Char}
    {json : Json} (h : parse? (String.ofList (c :: rest)) = some json) :
    json.IsContainer := by
  obtain ⟨token, htoken, first, hfirst, hopen⟩ : ∃ token,
    Lexer.punctuation? c = some token ∧
      ∃ first, Reading.step? Reading.start token = some first ∧ first.Enclosed := by
    rcases hc with rfl | rfl
    · exact ⟨_, rfl, _, rfl, List.cons_ne_nil _ _⟩
    · exact ⟨_, rfl, _, rfl, List.cons_ne_nil _ _⟩
  rw [parse?, Option.bind_eq_bind, Option.bind_eq_some_iff] at h
  obtain ⟨written, hwritten, hjson⟩ := h
  rw [Written.parse?, String.toList_ofList,
    Lexer.tokens?_of_lexes (Lexer.lexes_punctuation htoken rest), Option.bind_eq_bind,
    Option.bind_eq_some_iff] at hwritten
  obtain ⟨found, hfound, hwritten⟩ := hwritten
  obtain ⟨others, -, rfl⟩ := Option.map_eq_some_iff.mp hfound
  rw [Written.ofTokens?, Option.bind_eq_bind, Option.bind_eq_some_iff] at hwritten
  obtain ⟨reading, hreading, hresult⟩ := hwritten
  obtain ⟨middle, hmiddle, hreading⟩ := Option.bind_eq_some_iff.mp hreading
  obtain rfl := Option.some.inj (hfirst.symm.trans hmiddle)
  -- The first lexeme opens a container, and from there on the reading stays enclosed.
  have henclosed := Reading.enclosed_of_readAll? hopen hreading
  exact Written.isContainer_of_toJson?
    (Reading.isContainer_of_result? henclosed hresult) hjson

end ChainClient.Json
