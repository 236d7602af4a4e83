import ChangeFeed.Proofs.Json.Spelling
/-!
# Grammar — the texts that are JSON, and those that mean something to the reader

`Json.IsText` is the grammar of JSON, with a bound on how deep brackets nest.
`Json.Means` is what the reader makes of such a text. It takes a little less:
a surrogate must have its partner, and an object that begins with the reserved
key must be a number. And it is less strict than `Json.Spells`: a key may
repeat, and then its last value stands in its first place.
-/


namespace ChangeFeed

/-! ## Members that are set one after the other -/

namespace Members

variable {members : Members} {key : Text} {value : Json}

/-- Sets keys in turn. -/
def putAll (members : Members) (entries : List (Text × Json)) : Members :=
  entries.foldl (fun members entry => members.put entry.1 entry.2) members

theorem put_ne_nil (key : Text) (value : Json) (members : Members) :
    members.put key value ≠ [] := by
  cases members with
  | nil => exact List.cons_ne_nil _ _
  | cons first rest =>
    unfold put
    split <;> exact List.cons_ne_nil _ _

theorem mem_keys_put {other : Text} :
    other ∈ (members.put key value).keys ↔ other ∈ members.keys ∨ other = key := by
  rw [keys_put]
  split
  case isTrue hmem =>
    constructor
    · exact Or.inl
    · rintro (h | rfl)
      · exact h
      · exact hmem
  case isFalse => rw [List.mem_append, List.mem_singleton]

/-- A key that has been set is there, and so is every key from before. -/
theorem mem_keys_putAll {entries : List (Text × Json)} :
    key ∈ (members.putAll entries).keys ↔ key ∈ members.keys ∨ key ∈ entries.map Prod.fst := by
  induction entries generalizing members with
  | nil => simp [putAll]
  | cons entry rest ih =>
    show key ∈ ((members.put entry.1 entry.2).putAll rest).keys ↔ _
    rw [ih, mem_keys_put, List.map_cons, List.mem_cons, or_assoc]

/-- Keys that are all new keep their order. -/
theorem putAll_of_nodup {entries : List (Text × Json)} (h : (members ++ entries).keys.Nodup) :
    members.putAll entries = members ++ entries := by
  induction entries generalizing members with
  | nil => exact (List.append_nil members).symm
  | cons entry rest ih =>
    have hnew : entry.1 ∉ members.keys := by
      rw [keys, List.map_append, List.nodup_append] at h
      exact fun hmem => h.2.2 entry.1 hmem entry.1 List.mem_cons_self rfl
    have hput : members.put entry.1 entry.2 = members ++ [entry] := put_of_notMem hnew
    show (members.put entry.1 entry.2).putAll rest = _
    rw [hput, ih (by simpa using h), List.append_assoc, List.singleton_append]

end Members

/-! ## The grammar of JSON -/

/-- **What may stand between quotes**: characters and escapes, whether or not
a surrogate has its partner. -/
inductive IsQuoted : Text → Prop where
  | nil : IsQuoted []
  | plain {c : Char} {t : Text} (hquote : c ≠ '\x22') (hslash : c ≠ '\\')
      (hcontrol : 0x20 ≤ c.toNat) (h : IsQuoted t) : IsQuoted (c :: t)
  | escape {letter c : Char} {t : Text} (hletter : unescape? letter = some c) (h : IsQuoted t) :
      IsQuoted ('\\' :: letter :: t)
  | unit {digits t : Text} {value : Nat} (hdigits : unitValue? digits = some value)
      (h : IsQuoted t) : IsQuoted ('\\' :: 'u' :: (digits ++ t))

namespace IsQuoted

variable {s t : Text}

theorem append (hs : IsQuoted s) (ht : IsQuoted t) : IsQuoted (s ++ t) := by
  induction hs with
  | nil => exact ht
  | plain hquote hslash hcontrol _ ih => exact .plain hquote hslash hcontrol ih
  | escape hletter _ ih => exact .escape hletter ih
  | unit hdigits _ ih =>
    rw [List.cons_append, List.cons_append, List.append_assoc]
    exact .unit hdigits ih

/-- Every spelling of a character may stand there. -/
theorem of_spellsChar {c : Char} (h : SpellsChar c s) : IsQuoted s := by
  cases h with
  | plain hquote hslash hcontrol => exact .plain hquote hslash hcontrol .nil
  | escape h => exact .escape h .nil
  | @unit digits h =>
    have hunit := IsQuoted.unit h .nil
    rwa [List.append_nil] at hunit
  | @pair high low first second hhigh hlow _ _ _ =>
    have hpair := IsQuoted.unit hhigh (.unit hlow .nil)
    rwa [List.append_nil] at hpair

theorem of_spellsText (h : SpellsText t s) : IsQuoted s := by
  induction h with
  | nil => exact .nil
  | cons hchar _ ih => exact (of_spellsChar hchar).append ih

end IsQuoted

namespace Json

/-- **A key of an object**, with white space around it. -/
inductive IsKey : Text → Prop where
  | quoted {before inside after : Text} (hbefore : IsMargin before) (h : IsQuoted inside)
      (hafter : IsMargin after) : IsKey (before ++ ('\x22' :: (inside ++ ['\x22']) ++ after))

theorem SpellsKey.isKey {key keyText : Text} (h : SpellsKey key keyText) : IsKey keyText := by
  obtain ⟨hbefore, hinside, hafter⟩ := h
  exact .quoted hbefore (.of_spellsText hinside) hafter

/-- White space around a text. -/
inductive IsPadded (t : Text) : Text → Prop where
  | intro {before after : Text} (hbefore : IsMargin before) (hafter : IsMargin after) :
      IsPadded t (before ++ (t ++ after))

namespace IsPadded

variable {t padded : Text}

theorem refl (t : Text) : IsPadded t t := by
  have hpadded : IsPadded t _ := .intro .nil .nil
  rwa [List.nil_append, List.append_nil] at hpadded

/-- More white space may stand around it. -/
theorem margin {before after : Text} (h : IsPadded t padded) (hbefore : IsMargin before)
    (hafter : IsMargin after) : IsPadded t (before ++ (padded ++ after)) := by
  obtain ⟨hinner, houter⟩ := h
  have hpadded : IsPadded t _ := .intro (hbefore.append hinner) (houter.append hafter)
  simpa using hpadded

end IsPadded

/-- An array of items, with white space behind its bracket. -/
def squared (margin : Text) (items : List Text) : Text :=
  '[' :: (margin ++ (Text.joined [','] items ++ [']']))

/-- An object of members, with white space behind its brace. -/
def braced (margin : Text) (members : List Text) : Text :=
  '\x7b' :: (margin ++ (Text.joined [','] members ++ ['\x7d']))

/-- A member of an object, of what stands for its key and for its value. -/
def memberText (field : Text × Text) : Text := field.1 ++ ':' :: field.2

/-- **A JSON text** whose brackets nest at most so deep. -/
inductive IsText : Nat → Text → Prop where
  | null {depth : Nat} : IsText depth "null".toList
  | bool {depth : Nat} (b : Bool) : IsText depth (if b then "true".toList else "false".toList)
  | number {depth : Nat} {numeral text : Text} (h : numeral? text = some numeral) :
      IsText depth text
  | string {depth : Nat} {inside : Text} (h : IsQuoted inside) :
      IsText depth ('\x22' :: (inside ++ ['\x22']))
  | array {depth : Nat} {margin : Text} {items : List Text} (hmargin : IsMargin margin)
      (h : ∀ item ∈ items, IsText depth item) : IsText (depth + 1) (squared margin items)
  | object {depth : Nat} {margin : Text} {fields : List (Text × Text)} (hmargin : IsMargin margin)
      (hkeys : ∀ field ∈ fields, IsKey field.1) (h : ∀ field ∈ fields, IsText depth field.2) :
      IsText (depth + 1) (braced margin (fields.map memberText))
  | margin {depth : Nat} {before text after : Text} (hbefore : IsMargin before)
      (h : IsText depth text) (hafter : IsMargin after) : IsText depth (before ++ (text ++ after))

/-- A bound on the depth may be raised. -/
theorem IsText.mono {depth other : Nat} {t : Text} (h : IsText depth t) (hle : depth ≤ other) :
    IsText other t := by
  induction h generalizing other with
  | null => exact .null
  | bool b => exact .bool b
  | number h => exact .number h
  | string h => exact .string h
  | array hmargin _ ih =>
    obtain ⟨more, rfl⟩ : ∃ more, other = more + 1 := ⟨other - 1, by omega⟩
    exact .array hmargin fun item hitem => ih item hitem (by omega)
  | object hmargin hkeys _ ih =>
    obtain ⟨more, rfl⟩ : ∃ more, other = more + 1 := ⟨other - 1, by omega⟩
    exact .object hmargin hkeys fun field hfield => ih field hfield (by omega)
  | margin hbefore _ hafter ih => exact .margin hbefore (ih hle) hafter

theorem IsPadded.isText {depth : Nat} {t padded : Text} (h : IsPadded t padded)
    (ht : IsText depth t) : IsText depth padded := by
  obtain ⟨hbefore, hafter⟩ := h
  exact .margin hbefore ht hafter

/-- **A JSON text of an object** with these members, of what stands for their
keys and for their values. -/
inductive IsObject : Nat → List (Text × Text) → Text → Prop where
  | intro {depth : Nat} {fields : List (Text × Text)} {before margin after : Text}
      (hbefore : IsMargin before) (hmargin : IsMargin margin) (hafter : IsMargin after)
      (hkeys : ∀ field ∈ fields, IsKey field.1) (h : ∀ field ∈ fields, IsText depth field.2) :
      IsObject (depth + 1) fields (before ++ (braced margin (fields.map memberText) ++ after))

theorem IsObject.isText {depth : Nat} {fields : List (Text × Text)} {t : Text}
    (h : IsObject depth fields t) : IsText depth t := by
  obtain ⟨hbefore, hmargin, hafter, hkeys, h⟩ := h
  exact .margin hbefore (.object hmargin hkeys h) hafter

/-! ## What the reader makes of it -/

namespace SpelledMember

/-- What stands for the key and for the value. -/
def texts (spelled : SpelledMember) : Text × Text := (spelled.keyText, spelled.valueText)

theorem map_memberText (spelled : List SpelledMember) :
    (spelled.map texts).map memberText = spelled.map text := by
  rw [List.map_map]
  rfl

end SpelledMember

/-- **What a text means to the reader**, if its brackets nest at most so deep. -/
inductive Means : Nat → Json → Text → Prop where
  | null {depth : Nat} : Means depth .null "null".toList
  | bool {depth : Nat} (b : Bool) :
      Means depth (.bool b) (if b then "true".toList else "false".toList)
  | number {depth : Nat} {numeral text : Text} (h : numeral? text = some numeral) :
      Means depth (.number numeral) text
  | string {depth : Nat} {text inside : Text} (h : SpellsText text inside) :
      Means depth (.string text) ('\x22' :: (inside ++ ['\x22']))
  | array {depth : Nat} {margin : Text} {items : List (Json × Text)} (hmargin : IsMargin margin)
      (h : ∀ item ∈ items, Means depth item.1 item.2) :
      Means (depth + 1) (.array (items.map Prod.fst)) (squared margin (items.map Prod.snd))
  | object {depth : Nat} {margin : Text} {spelled : List SpelledMember} (hmargin : IsMargin margin)
      (hfirst : (spelled.map SpelledMember.key).head? ≠ some numeralKey)
      (hkeys : ∀ member ∈ spelled, SpellsKey member.key member.keyText)
      (h : ∀ member ∈ spelled, Means depth member.value member.valueText) :
      Means (depth + 1) (.object (Members.putAll [] (spelled.map SpelledMember.member)))
        (braced margin (spelled.map SpelledMember.text))
  /-- Under the reserved key stands a string, and in the string the number. -/
  | numeral {depth : Nat} {margin keyText valueText text numeral : Text} (hmargin : IsMargin margin)
      (hkey : SpellsKey numeralKey keyText) (hvalue : Means depth (.string text) valueText)
      (hnumeral : numeral? text = some numeral) :
      Means (depth + 1) (.number numeral) (braced margin [memberText (keyText, valueText)])
  | margin {depth : Nat} {value : Json} {before text after : Text} (hbefore : IsMargin before)
      (h : Means depth value text) (hafter : IsMargin after) :
      Means depth value (before ++ (text ++ after))

variable {depth room : Nat} {value : Json} {text : Text}

theorem ofNumeral?_eq_some_iff {number : Json} :
    value.ofNumeral? = some number ↔
      ∃ text, value = .string text ∧ ∃ numeral, numeral? text = some numeral ∧
        number = .number numeral := by
  constructor
  · intro h
    unfold ofNumeral? at h
    split at h
    · obtain ⟨numeral, hnumeral, rfl⟩ := Option.map_eq_some_iff.1 h
      exact ⟨_, rfl, numeral, hnumeral, rfl⟩
    · cases h
  · rintro ⟨text, rfl, numeral, hnumeral, rfl⟩
    rw [ofNumeral?, hnumeral, Option.map_some]

/-- **What means something is JSON.** -/
theorem Means.isText (h : Means depth value text) : IsText depth text := by
  induction h with
  | null => exact .null
  | bool b => exact .bool b
  | number h => exact .number h
  | string h => exact .string (.of_spellsText h)
  | array hmargin _ ih => exact .array hmargin (List.forall_mem_map.2 ih)
  | object hmargin _ hkeys _ ih =>
    rw [← SpelledMember.map_memberText]
    exact .object hmargin (List.forall_mem_map.2 fun member hmember => (hkeys member hmember).isKey)
      (List.forall_mem_map.2 ih)
  | @numeral depth margin keyText valueText text numeral hmargin hkey _ _ ih =>
    have hkeys : ∀ field ∈ [(keyText, valueText)], IsKey field.1 :=
      List.forall_mem_singleton.2 hkey.isKey
    exact .object hmargin hkeys (List.forall_mem_singleton.2 ih)
  | margin hbefore _ hafter ih => exact .margin hbefore ih hafter

/-- **Every text of a readable value means that value.** -/
theorem Spells.means (hspells : value.Spells text) (h : value.Readable room) :
    Means room value text := by
  induction hspells generalizing room with
  | null => exact .null
  | bool b => exact .bool b
  | number hnumeral => exact .number hnumeral
  | string hinside => exact .string hinside
  | array hmargin _ ih =>
    cases h with
    | array hitems =>
      exact .array hmargin fun item hitem => ih item hitem (hitems _ (List.mem_map_of_mem hitem))
  | @object margin spelled hmargin hkeys _ ih =>
    cases h with
    | object hkeyed hmembers =>
      have hfirst : (spelled.map SpelledMember.key).head? ≠ some numeralKey := by
        have hfirst := hkeyed.first
        rwa [Members.keys, List.map_map] at hfirst
      have hmeans := Means.object hmargin hfirst hkeys fun member hmember =>
        ih member hmember (hmembers _ (List.mem_map_of_mem hmember))
      rwa [Members.putAll_of_nodup hkeyed.nodup, List.nil_append] at hmeans
  | margin hbefore _ hafter ih => exact .margin hbefore (ih h) hafter

end Json

end ChangeFeed
