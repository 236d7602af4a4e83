import ChangeFeed.History
import ChangeFeed.Proofs.Json.Inverse
/-!
# Embedded entries — an entry in place or as a text

A history entry stands in its envelope as an object or as a string that holds
its text. Both ways meet at the value that is read of the text, so what is made
of an entry depends on its value alone, and not on which of the texts of that
value stands in the string (`embedded_agrees`).
-/


namespace ChangeFeed

namespace HistoryEntry

/-- **Two values are the same entry**: they are parsed alike, and whichever of
them an envelope carries makes no difference to its translation. -/
structure Agree (value other : Json) : Prop where
  parse : HistoryEntry.parse value = HistoryEntry.parse other
  translate : ∀ (translator : DdlTranslator) (envelope : Envelope),
    translator.translate { envelope with history := some value } =
      translator.translate { envelope with history := some other }

variable {members : Members} {text source : Text}

/-- A translation reads an entry by parsing it. -/
theorem agree_of_parse {value other : Json}
    (h : HistoryEntry.parse value = HistoryEntry.parse other) : Agree value other := by
  refine ⟨h, fun translator envelope => ?_⟩
  simp only [DdlTranslator.translate, h]
  rfl

/-- An object and a text that is read as that object are the same entry. -/
theorem agree_of_read? (h : Json.read? text = some (.object members)) :
    Agree (.object members) (.string text) := by
  apply agree_of_parse
  simp only [HistoryEntry.parse, h]

/-- **An entry in place and an embedded one are the same.** An object that can
be read is an entry, and it agrees with the string of its compact text and of
every other text that is a spelling of it or is read as it. -/
theorem embedded_agrees (hread : Json.read? source = some (.object members)) :
    (∃ entry, HistoryEntry.parse (.object members) = .ok entry) ∧
      Agree (.object members) (.string (Json.object members).write) ∧
      (∀ text, (Json.object members).Spells text → Agree (.object members) (.string text)) ∧
      ∀ text, Json.read? text = some (.object members) →
        Agree (.object members) (.string text) := by
  have hreadable := Json.readable_of_read? hread
  refine ⟨⟨_, rfl⟩, ?_, fun text hspells => ?_, fun text htext => agree_of_read? htext⟩
  · exact agree_of_read? (Json.read?_write hreadable)
  · exact agree_of_read? (hspells.read? hreadable)

/-- White space and escapes make no difference. -/
theorem embedded_agrees_escape :
    let members : Members := [("ddl".toList, .string "a".toList)]
    let compact : Text := "\x7b\x22ddl\x22:\x22a\x22\x7d".toList
    let spelled : Text := "\n\x7b\x22ddl\x22 :\x22\\u0061\x22\x7d".toList
    Json.read? compact = some (.object members) ∧ (Json.object members).write = compact ∧
      (Json.object members).Spells spelled ∧
      (∃ entry, HistoryEntry.parse (.object members) = .ok entry) ∧
      Agree (.object members) (.string compact) ∧ Agree (.object members) (.string spelled) := by
  intro members compact spelled
  have hread : Json.read? compact = some (.object members) := rfl
  have hwrite : (Json.object members).write = compact := by
    rw [Json.write, Json.writeMembers, Json.write]
    rfl
  have hspells : (Json.object members).Spells spelled := by
    let member : Json.SpelledMember := ⟨"ddl".toList, "\x22ddl\x22 ".toList, .string "a".toList,
      "\x22\\u0061\x22".toList⟩
    have hnone : Json.IsMargin [] := by decide
    have hkey : Json.SpellsKey member.key member.keyText :=
      @Json.SpellsKey.quoted _ [] _ [' '] hnone (spellsText_flatMap_escapeChar "ddl".toList)
        (by decide)
    have hletter : SpellsChar 'a' "\\u0061".toList := @SpellsChar.unit 'a' "0061".toList (by decide)
    have hvalue : member.value.Spells member.valueText := .string (.cons hletter .nil)
    have hobject := @Json.Spells.object [] [member] hnone (List.forall_mem_singleton.2 hkey)
      (List.forall_mem_singleton.2 hvalue)
    exact @Json.Spells.margin _ ['\n'] _ [] (by decide) hobject hnone
  obtain ⟨hparsed, hcompact, hspelled, -⟩ := embedded_agrees hread
  rw [hwrite] at hcompact
  exact ⟨hread, hwrite, hspells, hparsed, hcompact, hspelled spelled hspells⟩

end HistoryEntry

end ChangeFeed
