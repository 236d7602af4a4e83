import ChangeFeed.Proofs.Json.Readable
import ChangeFeed.Proofs.Text.Cutting
/-!
# Spelling — the texts of a value

A value has many texts: white space may stand around each value and key,
strings and keys may be spelled with escapes, and a number may have more than
one spelling. `Json.Spells` is the grammar of these texts, with one constructor
for each kind of value. Writing a value gives one of them (`spells_write`).
-/


namespace ChangeFeed

namespace Json

/-- White space that may stand around a value or a key. -/
def IsMargin (t : Text) : Prop := ∀ c ∈ t, isGap c = true

instance (t : Text) : Decidable (IsMargin t) :=
  decidable_of_iff (t.all isGap) (by simp [IsMargin])

namespace IsMargin

variable {c : Char} {s t : Text}

theorem nil : IsMargin [] := nofun

theorem cons (hc : isGap c = true) (h : IsMargin t) : IsMargin (c :: t) :=
  List.forall_mem_cons.2 ⟨hc, h⟩

theorem append (hs : IsMargin s) (ht : IsMargin t) : IsMargin (s ++ t) :=
  List.forall_mem_append.2 ⟨hs, ht⟩

end IsMargin

/-- **What may stand for a key.** -/
inductive SpellsKey (key : Text) : Text → Prop where
  | quoted {before inside after : Text} (hbefore : IsMargin before) (h : SpellsText key inside)
      (hafter : IsMargin after) :
      SpellsKey key (before ++ ('\x22' :: (inside ++ ['\x22']) ++ after))

/-- A key in quotes is one of the texts. -/
theorem spellsKey_quote (key : Text) : SpellsKey key key.quote := by
  have hkey := SpellsKey.quoted .nil (spellsText_flatMap_escapeChar key) .nil
  simpa [Text.quote] using hkey

/-- A member of an object with what stands for its key and for its value. -/
structure SpelledMember where
  key : Text
  keyText : Text
  value : Json
  valueText : Text

namespace SpelledMember

/-- The member that is spelled. -/
def member (spelled : SpelledMember) : Text × Json := (spelled.key, spelled.value)

/-- What stands for the member. -/
def text (spelled : SpelledMember) : Text := spelled.keyText ++ ':' :: spelled.valueText

end SpelledMember

/-- **What may stand for a value.** -/
inductive Spells : Json → Text → Prop where
  | null : Spells .null "null".toList
  | bool (b : Bool) : Spells (.bool b) (if b then "true".toList else "false".toList)
  | number {numeral text : Text} (h : numeral? text = some numeral) : Spells (.number numeral) text
  | string {text inside : Text} (h : SpellsText text inside) :
      Spells (.string text) ('\x22' :: (inside ++ ['\x22']))
  | array {margin : Text} {items : List (Json × Text)} (hmargin : IsMargin margin)
      (h : ∀ item ∈ items, Spells item.1 item.2) :
      Spells (.array (items.map Prod.fst))
        ('[' :: (margin ++ (Text.joined [','] (items.map Prod.snd) ++ [']'])))
  | object {margin : Text} {spelled : List SpelledMember} (hmargin : IsMargin margin)
      (hkeys : ∀ member ∈ spelled, SpellsKey member.key member.keyText)
      (h : ∀ member ∈ spelled, Spells member.value member.valueText) :
      Spells (.object (spelled.map SpelledMember.member))
        ('\x7b' :: (margin ++ (Text.joined [','] (spelled.map SpelledMember.text) ++ ['\x7d'])))
  | margin {value : Json} {before text after : Text} (hbefore : IsMargin before)
      (h : Spells value text) (hafter : IsMargin after) : Spells value (before ++ (text ++ after))

variable {room : Nat} {value : Json}

/-! ## Writing -/

theorem writeItems_eq_joined (items : List Json) :
    writeItems items = Text.joined [','] (items.map write) := by
  induction items with
  | nil => rfl
  | cons item rest ih =>
    cases rest with
    | nil =>
      rw [writeItems]
      rfl
    | cons next rest =>
      have hjoined : Text.joined [','] ((item :: next :: rest).map write) = _ :=
        Text.joined_cons (List.cons_ne_nil _ _)
      rw [writeItems, ih, hjoined]
      rfl

/-- A member as it is written. -/
def writeMember (member : Text × Json) : Text := member.1.quote ++ ':' :: member.2.write

theorem writeMembers_eq_joined (members : Members) :
    writeMembers members = Text.joined [','] (members.map writeMember) := by
  induction members with
  | nil => rfl
  | cons member rest ih =>
    cases rest with
    | nil =>
      rw [writeMembers]
      rfl
    | cons next rest =>
      have hjoined : Text.joined [','] ((member :: next :: rest).map writeMember) = _ :=
        Text.joined_cons (List.cons_ne_nil _ _)
      rw [writeMembers, ih, hjoined, writeMember, List.append_assoc]
      rfl

/-- **A readable value is spelled as it is written.** -/
theorem Readable.spells_write (h : value.Readable room) : value.Spells value.write := by
  have hmargin : IsMargin [] := nofun
  induction h with
  | null =>
    rw [write]
    exact .null
  | bool b =>
    cases b with
    | true =>
      rw [write]
      exact .bool true
    | false =>
      rw [write]
      exact .bool false
  | number h =>
    rw [write]
    exact .number h
  | string text =>
    rw [write]
    exact .string (spellsText_flatMap_escapeChar text)
  | @array room items h ih =>
    let spelled := items.map fun item => (item, item.write)
    have hitems : ∀ item ∈ spelled, Spells item.1 item.2 := by
      intro item hitem
      obtain ⟨source, hsource, rfl⟩ := List.mem_map.1 hitem
      exact ih source hsource
    have hvalues : spelled.map Prod.fst = items := by simp [spelled, Function.comp_def]
    have htexts : spelled.map Prod.snd = items.map write := by simp [spelled, Function.comp_def]
    have hspells := Spells.array hmargin hitems
    rw [hvalues, htexts, ← writeItems_eq_joined] at hspells
    rw [write]
    exact hspells
  | @object room members hkeys h ih =>
    let spelled := members.map fun member =>
      SpelledMember.mk member.1 member.1.quote member.2 member.2.write
    have hkeys : ∀ member ∈ spelled, SpellsKey member.key member.keyText := by
      intro member hmember
      obtain ⟨source, -, rfl⟩ := List.mem_map.1 hmember
      exact spellsKey_quote source.1
    have hvalues : ∀ member ∈ spelled, Spells member.value member.valueText := by
      intro member hmember
      obtain ⟨source, hsource, rfl⟩ := List.mem_map.1 hmember
      exact ih source hsource
    have hmembers : spelled.map SpelledMember.member = members := by
      simp [spelled, Function.comp_def, SpelledMember.member]
    have htexts : spelled.map SpelledMember.text = members.map writeMember := by
      rw [List.map_map]
      rfl
    have hspells := Spells.object hmargin hkeys hvalues
    rw [hmembers, htexts, ← writeMembers_eq_joined] at hspells
    rw [write]
    exact hspells

end Json

end ChangeFeed
