import ChangeFeed.Frontend.Reply
import ChangeFeed.Proofs.Json.Outlining
/-!
# Consent — the answers that count as a yes

A frontend has agreed if the status is of success and the answer says zero.
`Json.SaysZero` is what says it: the string `0` in any spelling, or the number
written `0` and no other way. `isSuccess_iff` says where it may stand: as the
one field `code` of an object, whatever else the object holds, or as the one
item of an array. The last is more than is asked for, since an array has no
field (`not_only_code`). So is the reserved object, which is read as the number
that its string holds.
-/


namespace ChangeFeed

/-! ## Zero -/

/-- Reading a number drops none of its characters. -/
theorem NumberPhase.length_le_of_numeral? {phase : NumberPhase} {reversed t numeral : Text}
    (h : phase.numeral? reversed t = some numeral) :
    reversed.length + t.length ≤ numeral.length := by
  induction t generalizing phase reversed with
  | nil =>
    unfold NumberPhase.numeral? at h
    split at h
    · cases h
      simp
    · cases h
  | cons c t ih =>
    unfold NumberPhase.numeral? at h
    split at h
    · cases h
    · have hlength := ih h
      have hspelling : 1 ≤ (phase.spelling c).length := by
        unfold NumberPhase.spelling
        split
        · simp
        · split <;> simp
      simp only [List.length_append, List.length_reverse, List.length_cons] at hlength ⊢
      omega

/-- **Only zero is written `0`**: no sign, point or exponent is left out. -/
theorem eq_zero_of_numeral? {t : Text} (h : numeral? t = some ['0']) : t = ['0'] := by
  cases t with
  | nil => cases h
  | cons c t =>
    obtain ⟨phase, -, hread⟩ := Option.bind_eq_some_iff.1 h
    have hlength := NumberPhase.length_le_of_numeral? hread
    cases t with
    | nil =>
      unfold NumberPhase.numeral? at hread
      split at hread
      · cases hread
        rfl
      · cases hread
    | cons d t =>
      simp only [List.length_cons, List.length_nil] at hlength
      omega

namespace Json

/-- **What says zero**, in one of the ways that count. -/
inductive SaysZero : Text → Prop where
  | string {inside : Text} (h : SpellsText ['0'] inside) : SaysZero ('\x22' :: (inside ++ ['\x22']))
  | number : SaysZero ['0']
  /-- An object that stands for a number, of which the text is zero. -/
  | numeral {margin keyText inside valueText : Text} (hmargin : IsMargin margin)
      (hkey : SpellsKey numeralKey keyText) (h : SpellsText ['0'] inside)
      (hvalue : IsPadded ('\x22' :: (inside ++ ['\x22'])) valueText) :
      SaysZero (braced margin [memberText (keyText, valueText)])
  | margin {before text after : Text} (hbefore : IsMargin before) (h : SaysZero text)
      (hafter : IsMargin after) : SaysZero (before ++ (text ++ after))

variable {depth : Nat} {t text : Text}

/-- What means a string is that string in quotes. -/
theorem Means.exists_inside (h : Means depth (.string text) t) :
    ∃ inside, SpellsText text inside ∧ IsPadded ('\x22' :: (inside ++ ['\x22'])) t := by
  generalize hvalue : Json.string text = value at h
  induction h with
  | string hinside =>
    cases hvalue
    exact ⟨_, hinside, .refl _⟩
  | margin hbefore _ hafter ih =>
    obtain ⟨inside, hinside, hpadded⟩ := ih hvalue
    exact ⟨inside, hinside, hpadded.margin hbefore hafter⟩
  | _ => cases hvalue

theorem SaysZero.of_padded {padded : Text} (h : SaysZero t) (hpadded : IsPadded t padded) :
    SaysZero padded := by
  obtain ⟨hbefore, hafter⟩ := hpadded
  exact .margin hbefore h hafter

/-- What means the string or the number zero says so. -/
theorem Means.saysZero {value : Json} (h : Means depth value t)
    (hvalue : value = .string ['0'] ∨ value = .number ['0']) : SaysZero t := by
  rcases hvalue with rfl | rfl
  · obtain ⟨inside, hinside, hpadded⟩ := h.exists_inside
    exact SaysZero.of_padded (.string hinside) hpadded
  · generalize hvalue : Json.number ['0'] = value at h
    induction h with
    | number hnumeral =>
      cases hvalue
      rw [eq_zero_of_numeral? hnumeral]
      exact .number
    | numeral hmargin hkey hstring hnumeral =>
      cases hvalue
      obtain rfl := eq_zero_of_numeral? hnumeral
      obtain ⟨inside, hinside, hpadded⟩ := hstring.exists_inside
      exact .numeral hmargin hkey hinside hpadded
    | margin hbefore _ hafter ih => exact .margin hbefore (ih hvalue) hafter
    | _ => cases hvalue

/-- What says zero means it. -/
theorem SaysZero.exists_means (h : SaysZero t) :
    ∃ value, (value = .string ['0'] ∨ value = .number ['0']) ∧ Means 1 value t := by
  induction h with
  | string h => exact ⟨_, Or.inl rfl, .string h⟩
  | number => exact ⟨_, Or.inr rfl, .number rfl⟩
  | numeral hmargin hkey h hvalue =>
    obtain ⟨hbefore, hafter⟩ := hvalue
    exact ⟨_, Or.inr rfl, .numeral hmargin hkey (.margin hbefore (.string h) hafter) rfl⟩
  | margin hbefore _ hafter ih =>
    obtain ⟨value, hvalue, hmeans⟩ := ih
    exact ⟨value, hvalue, .margin hbefore hmeans hafter⟩

/-- **A JSON text is read as zero exactly if it says so.** -/
theorem IsJson.read?_eq_zero_iff (h : IsJson t) :
    (read? t = some (.string ['0']) ∨ read? t = some (.number ['0'])) ↔ SaysZero t := by
  obtain ⟨depth, ht⟩ := h
  constructor
  · rintro (hread | hread)
    · exact (ht.means_of_read? hread).saysZero (Or.inl rfl)
    · exact (ht.means_of_read? hread).saysZero (Or.inr rfl)
  · intro hzero
    -- what says zero nests at most one bracket, however deep the text may
    obtain ⟨value, rfl | rfl, hmeans⟩ := hzero.exists_means
    · exact Or.inl (hmeans.read? (by decide))
    · exact Or.inr (hmeans.read? (by decide))

end Json

/-! ## Where it stands -/

namespace Outline

variable {outline : Outline} {lexeme : Text}

/-- **There is one place for a code**: the field of that name in an object that
has one, or the item of an array that has one. -/
theorem codeLexeme?_eq_some_iff :
    outline.codeLexeme? = some lexeme ↔
      (∃ fields, outline = .object fields ∧
        fields.filter (·.1 == "code".toList) = [("code".toList, lexeme)]) ∨
      outline = .array [lexeme] := by
  cases outline with
  | array items =>
    cases items with
    | nil => simp [codeLexeme?]
    | cons item rest => cases rest <;> simp [codeLexeme?]
  | object fields =>
    unfold codeLexeme?
    constructor
    · intro h
      dsimp only at h
      split at h
      · next name value hfilter =>
        cases h
        -- what is filtered by a name has that name
        have hmem : (name, lexeme) ∈ fields.filter (·.1 == "code".toList) := by
          rw [hfilter]
          exact List.mem_singleton_self _
        have hname : name = "code".toList := by simpa using (List.mem_filter.1 hmem).2
        exact Or.inl ⟨fields, rfl, by rw [hfilter, hname]⟩
      · cases h
    · rintro (⟨_, ⟨⟩, hfilter⟩ | ⟨⟨⟩⟩)
      simp only [hfilter]

end Outline

/-- What stands in the place of a code is JSON. -/
theorem Json.Outlines.isJson_of_codeLexeme? {outline : Outline} {t lexeme : Text}
    (h : Outlines outline t) (hlexeme : outline.codeLexeme? = some lexeme) : IsJson lexeme := by
  rcases Outline.codeLexeme?_eq_some_iff.1 hlexeme with ⟨fields, rfl, hfilter⟩ | rfl
  · cases h with
    | object hbefore hmargin hafter hkeys hvalues =>
      have hmem : ("code".toList, lexeme) ∈ _ :=
        (List.mem_filter.1 (hfilter ▸ List.mem_singleton_self _)).1
      obtain ⟨field, hfield, heq⟩ := List.mem_map.1 hmem
      have hvalue : field.valueText = lexeme := congrArg Prod.snd heq
      exact hvalue ▸ hvalues field hfield
  · cases h with
    | array hbefore hmargin hafter hfirst hitems => exact hitems _ (List.mem_singleton_self _)

namespace Response

variable {r : Response}

/-- The code is zero if the text in its place is read as zero. -/
theorem code?_eq_zero_iff :
    r.code? = some successCode ↔
      ∃ outline lexeme, Json.outline? r.body = some outline ∧ outline.codeLexeme? = some lexeme ∧
        (Json.read? lexeme = some (.string ['0']) ∨ Json.read? lexeme = some (.number ['0'])) := by
  unfold code?
  constructor
  · intro h
    split at h
    · next code hread =>
      cases h
      obtain ⟨lexeme, hlexeme, hread⟩ := Option.bind_eq_some_iff.1 hread
      obtain ⟨outline, houtline, hlexeme⟩ := Option.bind_eq_some_iff.1 hlexeme
      exact ⟨outline, lexeme, houtline, hlexeme, Or.inl hread⟩
    · next code hread =>
      cases h
      obtain ⟨lexeme, hlexeme, hread⟩ := Option.bind_eq_some_iff.1 hread
      obtain ⟨outline, houtline, hlexeme⟩ := Option.bind_eq_some_iff.1 hlexeme
      exact ⟨outline, lexeme, houtline, hlexeme, Or.inr hread⟩
    · cases h
  · rintro ⟨outline, lexeme, houtline, hlexeme, hread | hread⟩
    all_goals
      simp only [houtline, Option.bind_some, hlexeme, hread]
      rfl

/-- **When a frontend has agreed.** -/
theorem isSuccess_iff (r : Response) :
    r.isSuccess = true ↔ (200 ≤ r.status ∧ r.status ≤ 299) ∧ ∃ lexeme, Json.SaysZero lexeme ∧
      ((∃ fields, Json.Outlines (.object fields) r.body ∧
        fields.filter (·.1 == "code".toList) = [("code".toList, lexeme)]) ∨
      Json.Outlines (.array [lexeme]) r.body) := by
  have hstatus : r.isSuccess = true ↔
      (200 ≤ r.status ∧ r.status ≤ 299) ∧ r.code? = some successCode := by
    unfold isSuccess
    rw [Bool.and_eq_true, Bool.and_eq_true, decide_eq_true_eq, decide_eq_true_eq, beq_iff_eq,
      Nat.lt_succ_iff]
  rw [hstatus, code?_eq_zero_iff]
  refine and_congr_right fun _ => ?_
  constructor
  · rintro ⟨outline, lexeme, houtline, hlexeme, hread⟩
    have houtlines := Json.outline?_eq_some_iff.1 houtline
    refine ⟨lexeme, (houtlines.isJson_of_codeLexeme? hlexeme).read?_eq_zero_iff.1 hread, ?_⟩
    rcases Outline.codeLexeme?_eq_some_iff.1 hlexeme with ⟨fields, rfl, hfilter⟩ | rfl
    · exact Or.inl ⟨fields, houtlines, hfilter⟩
    · exact Or.inr houtlines
  · rintro ⟨lexeme, hzero, hplace⟩
    obtain ⟨outline, houtlines, hlexeme⟩ : ∃ outline, Json.Outlines outline r.body ∧
        outline.codeLexeme? = some lexeme := by
      rcases hplace with ⟨fields, houtlines, hfilter⟩ | houtlines
      · exact ⟨_, houtlines, Outline.codeLexeme?_eq_some_iff.2 (Or.inl ⟨fields, rfl, hfilter⟩)⟩
      · exact ⟨_, houtlines, rfl⟩
    have hjson := houtlines.isJson_of_codeLexeme? hlexeme
    exact ⟨outline, lexeme, Json.outline?_eq_some_iff.2 houtlines, hlexeme,
      hjson.read?_eq_zero_iff.2 hzero⟩

/-- **More than a code counts.** An array of one zero is taken for a yes, and
it is no object. So is an object whose code is an object, if that one is
reserved. -/
theorem not_only_code :
    let listed : Response := ⟨200, "[\"0\"]".toList⟩
    let reserved := "\x7b\"$serde_json::private::Number\":\"0\"\x7d".toList
    let nested : Response := ⟨200, "\x7b\"code\":".toList ++ reserved ++ "\x7d".toList⟩
    listed.isSuccess = true ∧ (∀ fields, ¬ Json.Outlines (.object fields) listed.body) ∧
      nested.isSuccess = true ∧
        Json.Outlines (.object [("code".toList, reserved)]) nested.body := by
  intro listed reserved nested
  have hlisted : Json.outline? listed.body = some (.array ["\"0\"".toList]) := by decide +kernel
  have hnested : Json.outline? nested.body = some (.object [("code".toList, reserved)]) := by
    decide +kernel
  refine ⟨by decide +kernel, fun fields hfields => ?_, by decide +kernel,
    Json.outline?_eq_some_iff.1 hnested⟩
  rw [Json.outline?_eq_some_iff.2 hfields] at hlisted
  cases hlisted

end Response

end ChangeFeed
