import ChangeFeed.Proofs.Frontend.Consent
/-!
# One code — the other fields of an answer do not matter

`Json.HasOneCode` is a body by the grammar: an object with one field `code` and
any number of others, of other names and of any JSON. Its outline says the same
(`hasOneCode_iff`), so the code is what is read, wherever it stands among the
others (`code?_of_hasOneCode`). Two bodies with one code of the same value are
then no different to whoever asks if a frontend has agreed.
-/


namespace ChangeFeed

namespace Json

/-- **A body with one code**: a JSON object with one field `code`, of which the
value is read as this one. The other fields have other names, and any JSON
behind them. -/
inductive HasOneCode (value : Json) (body : Text) : Prop where
  | intro {depth : Nat} {earlier later : List (Text × Text)} {keyText valueText : Text}
      (hobject : IsObject depth (earlier ++ (keyText, valueText) :: later) body)
      (hkey : SpellsKey "code".toList keyText) (hread : read? valueText = some value)
      (hothers : ∀ field ∈ earlier ++ later, ∃ name, SpellsKey name field.1 ∧ name ≠ "code".toList)

/-- What stands for the name and for the value. -/
def SpelledField.texts (spelled : SpelledField) : Text × Text :=
  (spelled.keyText, spelled.valueText)

variable {value : Json} {body : Text} {fields : List (Text × Text)}

/-- Keys that spell names are those of fields with these names. -/
theorem exists_spelledFields {p : Text → Prop}
    (h : ∀ field ∈ fields, ∃ name, SpellsKey name field.1 ∧ p name) :
    ∃ spelled : List SpelledField, fields = spelled.map SpelledField.texts ∧
      ∀ field ∈ spelled, SpellsKey field.name field.keyText ∧ p field.name := by
  induction fields with
  | nil => exact ⟨[], rfl, List.forall_mem_nil _⟩
  | cons field rest ih =>
    obtain ⟨⟨name, hname⟩, hrest⟩ := List.forall_mem_cons.1 h
    obtain ⟨spelled, rfl, hspelled⟩ := ih hrest
    exact ⟨⟨name, field.1, field.2⟩ :: spelled, rfl, List.forall_mem_cons.2 ⟨hname, hspelled⟩⟩

/-- **An outline is of an object** whose keys spell the names in it. -/
theorem outlines_object_iff :
    Outlines (.object fields) body ↔ ∃ (depth : Nat) (spelled : List SpelledField),
      fields = spelled.map SpelledField.field ∧
      (∀ field ∈ spelled, SpellsKey field.name field.keyText) ∧
      IsObject depth (spelled.map SpelledField.texts) body := by
  have htexts : ∀ spelled : List SpelledField,
      (spelled.map SpelledField.texts).map memberText = spelled.map SpelledField.text :=
    fun spelled => List.map_map
  constructor
  · intro h
    cases h with
    | @object before margin after spelled hbefore hmargin hafter hkeys hvalues =>
      obtain ⟨depth, hdeep⟩ := exists_depth (List.forall_mem_map.2 hvalues)
      refine ⟨depth + 1, spelled, rfl, hkeys, ?_⟩
      rw [← htexts]
      exact .intro hbefore hmargin hafter
        (List.forall_mem_map.2 fun field hfield => (hkeys field hfield).isKey)
        (List.forall_mem_map.2 (List.forall_mem_map.1 hdeep))
  · rintro ⟨depth, spelled, rfl, hkeys, hobject⟩
    generalize hfields : spelled.map SpelledField.texts = fields at hobject
    obtain ⟨hbefore, hmargin, hafter, -, hvalues⟩ := hobject
    subst hfields
    rw [htexts]
    exact .object hbefore hmargin hafter hkeys fun field hfield =>
      ⟨_, hvalues _ (List.mem_map_of_mem hfield)⟩

/-- A field of another name is no code. -/
theorem SpelledField.notCode_iff {spelled : List SpelledField} :
    (spelled.map field).filter (·.1 == "code".toList) = [] ↔
      ∀ field ∈ spelled, field.name ≠ "code".toList := by
  rw [List.filter_eq_nil_iff, List.forall_mem_map]
  simp only [field, beq_iff_eq, ne_eq]

/-- **A body has one code** exactly if its outline has one field of that name. -/
theorem hasOneCode_iff :
    HasOneCode value body ↔ ∃ fields lexeme, outline? body = some (.object fields) ∧
      fields.filter (·.1 == "code".toList) = [("code".toList, lexeme)] ∧
      read? lexeme = some value := by
  simp only [outline?_eq_some_iff]
  constructor
  · intro h
    obtain @⟨depth, _, _, keyText, lexeme, hobject, hkey, hread, hothers⟩ := h
    rw [List.forall_mem_append] at hothers
    obtain ⟨earlier, rfl, hearlier⟩ := exists_spelledFields hothers.1
    obtain ⟨later, rfl, hlater⟩ := exists_spelledFields hothers.2
    let code : SpelledField := ⟨"code".toList, keyText, lexeme⟩
    have hkeys : ∀ field ∈ earlier ++ code :: later, SpellsKey field.name field.keyText := by
      rw [List.forall_mem_append, List.forall_mem_cons]
      exact ⟨fun field hfield => (hearlier field hfield).1, hkey,
        fun field hfield => (hlater field hfield).1⟩
    have hbefore := SpelledField.notCode_iff.2 fun field hfield => (hearlier field hfield).2
    have hbehind := SpelledField.notCode_iff.2 fun field hfield => (hlater field hfield).2
    refine ⟨_, lexeme, outlines_object_iff.2 ⟨depth, _, rfl, hkeys, ?_⟩, ?_, hread⟩
    · rw [List.map_append, List.map_cons]
      exact hobject
    · rw [List.map_append, List.filter_append, hbefore, List.nil_append, List.map_cons,
        List.filter_cons_of_pos (by rfl), hbehind]
      rfl
  · rintro ⟨fields, lexeme, houtlines, hfilter, hread⟩
    obtain ⟨depth, spelled, rfl, hkeys, hobject⟩ := outlines_object_iff.1 houtlines
    rw [List.filter_map, List.map_eq_singleton_iff] at hfilter
    obtain ⟨code, hfilter, hcode⟩ := hfilter
    obtain ⟨earlier, later, rfl, hearlier, -, hlater⟩ := List.filter_eq_cons_iff.1 hfilter
    obtain ⟨hname, hvalue⟩ := Prod.mk.inj hcode
    rw [List.forall_mem_append, List.forall_mem_cons] at hkeys
    obtain ⟨hbefore, hkey, hbehind⟩ := hkeys
    -- whatever is dropped from the outline has another name
    have hothers : ∀ field ∈ earlier ++ later,
        SpellsKey field.name field.keyText ∧ field.name ≠ "code".toList := by
      rw [List.forall_mem_append]
      constructor
      · intro field hfield
        exact ⟨hbefore field hfield, by simpa [SpelledField.field] using hearlier field hfield⟩
      · intro field hfield
        have hdropped := List.filter_eq_nil_iff.1 hlater field hfield
        exact ⟨hbehind field hfield, by simpa [SpelledField.field] using hdropped⟩
    rw [List.map_append, List.map_cons] at hobject
    refine .intro hobject (hname ▸ hkey) (hvalue ▸ hread) ?_
    rw [← List.map_append, List.forall_mem_map]
    exact fun field hfield => ⟨field.name, hothers field hfield⟩

/-- **The one code is what is read**, wherever it stands. -/
theorem HasOneCode.read?_codeLexeme? (h : HasOneCode value body) :
    ((outline? body).bind Outline.codeLexeme?).bind read? = some value := by
  obtain ⟨fields, lexeme, houtline, hfilter, hread⟩ := hasOneCode_iff.1 h
  have hlexeme : (Outline.object fields).codeLexeme? = some lexeme :=
    Outline.codeLexeme?_eq_some_iff.2 (Or.inl ⟨fields, rfl, hfilter⟩)
  rw [houtline, Option.bind_some, hlexeme, Option.bind_some, hread]

end Json

namespace Response

open Json (HasOneCode)

/-- **Only the code matters.** Two bodies with one code of the same value count
alike under every status, whatever their other fields are: as a yes exactly if
the status is of success and the value is a zero. -/
theorem isSuccess_eq_of_hasOneCode {value : Json} {first second : Text}
    (hfirst : HasOneCode value first) (hsecond : HasOneCode value second) (status : Nat) :
    isSuccess ⟨status, first⟩ = isSuccess ⟨status, second⟩ ∧
      (isSuccess ⟨status, first⟩ = true ↔ (200 ≤ status ∧ status ≤ 299) ∧
        (value = .string ['0'] ∨ value = .number ['0'])) := by
  unfold isSuccess code?
  rw [hfirst.read?_codeLexeme?, hsecond.read?_codeLexeme?]
  refine ⟨rfl, ?_⟩
  have hsuccess : successCode = ['0'] := rfl
  rw [Bool.and_eq_true, Bool.and_eq_true, decide_eq_true_eq, decide_eq_true_eq, beq_iff_eq,
    Nat.lt_succ_iff, hsuccess]
  cases value <;> simp

/-- The same code in two spellings. Once it stands alone, and once behind an
object with a code of its own, next to names that come near, and before more
brackets than are ever read, with half a surrogate in them. -/
theorem isSuccess_eq_of_hasOneCode_nested :
    let bare := "\x7b\"code\":\"0\"\x7d".toList
    let message := "\x7b\"code\":\"1\"\x7d".toList
    let deep := List.replicate 200 '[' ++ "\"\\ud800\"".toList ++ List.replicate 200 ']'
    let laden := "\x7b\"msg\":".toList ++ message ++
      ",\"Code\":1,\"c\\u006fde\":\"\\u0030\",\"codes\":".toList ++ deep ++ "\x7d".toList
    Json.HasOneCode (.string ['0']) bare ∧ Json.HasOneCode (.string ['0']) laden ∧
      Json.read? deep = none ∧ isSuccess ⟨204, laden⟩ = isSuccess ⟨204, bare⟩ ∧
      isSuccess ⟨204, laden⟩ = true := by
  intro bare message deep laden
  have hbare : Json.HasOneCode (.string ['0']) bare := Json.hasOneCode_iff.2
    ⟨[("code".toList, "\"0\"".toList)], _, by decide +kernel, rfl, rfl⟩
  have hladen : Json.HasOneCode (.string ['0']) laden := Json.hasOneCode_iff.2
    ⟨[("msg".toList, message), ("Code".toList, ['1']), ("code".toList, "\"\\u0030\"".toList),
      ("codes".toList, deep)], _, by decide +kernel, rfl, rfl⟩
  have hdeep : (Json.read? deep).isNone = true := by decide +kernel
  obtain ⟨hsame, hyes⟩ := isSuccess_eq_of_hasOneCode hladen hbare 204
  exact ⟨hbare, hladen, Option.isNone_iff_eq_none.1 hdeep, hsame,
    hyes.2 ⟨by decide, Or.inl rfl⟩⟩

end Response

end ChangeFeed
