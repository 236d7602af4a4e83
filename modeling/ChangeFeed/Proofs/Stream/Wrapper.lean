import ChangeFeed.Proofs.Json.Acceptance
import ChangeFeed.Proofs.Text.Encoding
import ChangeFeed.Serializer
/-!
# Wrappers — an envelope as the payload of an object

An envelope may come wrapped, next to a schema. The wrapper is seen through on
the level of texts: whatever stands for the schema and for the payload, in
either order and with white space anywhere, the payload is decoded as if it
stood alone. The schema is the weak spot. It is not used, but it is read, so
one that the reader refuses takes the envelope along.
-/


namespace ChangeFeed

namespace Json

theorem IsPadded.read? {t padded : Text} (h : IsPadded t padded) :
    Json.read? padded = Json.read? t := by
  obtain ⟨hbefore, hafter⟩ := h
  exact read?_margin hbefore hafter t

/-- **A wrapper**: an object of a schema and a payload, in either order and
with white space anywhere. -/
inductive Wraps (schema payload : Text) : Text → Prop where
  | intro {before margin after schemaKey payloadKey schemaText payloadText : Text}
      {fields : List (Text × Text)} (hbefore : IsMargin before) (hmargin : IsMargin margin)
      (hafter : IsMargin after) (hschemaKey : SpellsKey "schema".toList schemaKey)
      (hpayloadKey : SpellsKey "payload".toList payloadKey) (hschema : IsPadded schema schemaText)
      (hpayload : IsPadded payload payloadText)
      (hfields : fields = [(schemaKey, schemaText), (payloadKey, payloadText)] ∨
        fields = [(payloadKey, payloadText), (schemaKey, schemaText)]) :
      Wraps schema payload (before ++ (braced margin (fields.map memberText) ++ after))

variable {schema payload wrapper : Text} {s p : Json}

/-- **A payload that is refused takes the wrapper along.** -/
theorem Wraps.read?_eq_none (h : Wraps schema payload wrapper) (hschema : IsText 126 schema)
    (hpayload : IsText 126 payload) (hp : Json.read? payload = none) :
    Json.read? wrapper = none := by
  cases h with
  | @intro _ _ _ schemaKey payloadKey schemaText payloadText fields hbefore hmargin hafter
      hschemaKey hpayloadKey hs hpadded hfields =>
    have hkeys : ∀ field ∈ fields, IsKey field.1 := by
      rcases hfields with rfl | rfl <;> simp [hschemaKey.isKey, hpayloadKey.isKey]
    have htexts : ∀ field ∈ fields, IsText 126 field.2 := by
      rcases hfields with rfl | rfl <;> simp [hs.isText hschema, hpadded.isText hpayload]
    have hmem : (payloadKey, payloadText) ∈ fields := by
      rcases hfields with rfl | rfl <;> simp
    exact (IsObject.intro hbefore hmargin hafter hkeys htexts).read?_eq_none (Nat.le_refl _) hmem
      (hpadded.read?.trans hp)

/-- An object of two members is read as both, if the first key is not
reserved. -/
theorem read?_pair (first second : SpelledMember) {margin : Text} (hmargin : IsMargin margin)
    (hne : first.key ≠ numeralKey) (hfirstKey : SpellsKey first.key first.keyText)
    (hsecondKey : SpellsKey second.key second.keyText)
    (hfirst : Means 126 first.value first.valueText)
    (hsecond : Means 126 second.value second.valueText) :
    Json.read? (braced margin [first.text, second.text]) =
      some (.object (Members.putAll [] [first.member, second.member])) := by
  have hhead : ([first, second].map SpelledMember.key).head? ≠ some numeralKey :=
    fun heq => hne (Option.some.inj heq)
  have hkeys : ∀ member ∈ [first, second], SpellsKey member.key member.keyText := by
    simpa using ⟨hfirstKey, hsecondKey⟩
  have hobject := Means.object hmargin hhead hkeys (by simpa using ⟨hfirst, hsecond⟩)
  exact hobject.read? (Nat.le_refl _)

/-- **A wrapper is read as its schema and its payload**, in the order in
which they stand. -/
theorem Wraps.read? (h : Wraps schema payload wrapper) (hschema : IsText 126 schema)
    (hpayload : IsText 126 payload) (hs : Json.read? schema = some s)
    (hp : Json.read? payload = some p) :
    Json.read? wrapper = some (.object [("schema".toList, s), ("payload".toList, p)]) ∨
      Json.read? wrapper = some (.object [("payload".toList, p), ("schema".toList, s)]) := by
  cases h with
  | @intro _ _ _ schemaKey payloadKey schemaText payloadText fields hbefore hmargin hafter
      hschemaKey hpayloadKey hschemaText hpayloadText hfields =>
    have hsmeans := (hschemaText.isText hschema).means_of_read? (hschemaText.read?.trans hs)
    have hpmeans := (hpayloadText.isText hpayload).means_of_read? (hpayloadText.read?.trans hp)
    let schemaMember := SpelledMember.mk "schema".toList schemaKey s schemaText
    let payloadMember := SpelledMember.mk "payload".toList payloadKey p payloadText
    rw [read?_margin hbefore hafter]
    have hschemaNe : "schema".toList ≠ numeralKey := by decide
    have hpayloadNe : "payload".toList ≠ numeralKey := by decide
    rcases hfields with rfl | rfl
    · exact Or.inl (read?_pair schemaMember payloadMember hmargin hschemaNe hschemaKey hpayloadKey
        hsmeans hpmeans)
    · exact Or.inr (read?_pair payloadMember schemaMember hmargin hpayloadNe hpayloadKey hschemaKey
        hpmeans hsmeans)

end Json

/-- A key that is there has a value. -/
theorem Members.exists_find? {members : Members} {key : Text} (h : key ∈ members.keys) :
    ∃ value, members.find? key = some value := by
  induction members with
  | nil => cases h
  | cons first rest ih =>
    unfold find?
    split
    case isTrue => exact ⟨_, rfl⟩
    case isFalse hne =>
      rw [keys, List.map_cons, List.mem_cons] at h
      rcases h with rfl | h
      · exact absurd rfl hne
      · exact ih h

namespace Envelope

/-- The envelope that an object is, with nothing taken off. -/
def ofObject (object : Json) : Envelope :=
  { operation := (object.textField? "op").map RowOperation.ofCode
    source := .ofJson ((object.get? "source".toList).getD .null)
    before := object.field? "before".toList
    after := object.field? "after".toList
    history := object.field? "historyRecord".toList }

variable {members : Members}

theorem ofMembers_eq (members : Members) :
    ofMembers members = ofObject (.object (unwrap members)) := rfl

/-- **At most one layer is taken off.** -/
theorem unwrap_eq_or (members : Members) :
    unwrap members = members ∨
      ∃ payload, members.find? "payload".toList = some (.object payload) ∧
        unwrap members = payload := by
  unfold unwrap
  split
  · next payload _ _ hpayload => exact Or.inr ⟨payload, hpayload, rfl⟩
  · exact Or.inl rfl

/-- Nothing is taken off an object with an operation or a history entry of
its own, whatever they are. -/
theorem unwrap_of_mem_keys
    (h : "op".toList ∈ members.keys ∨ "historyRecord".toList ∈ members.keys) :
    unwrap members = members := by
  unfold unwrap
  split
  · next payload hop hhistory _ =>
    rcases h with h | h
    all_goals
      obtain ⟨value, hvalue⟩ := Members.exists_find? h
      simp_all
  · rfl

/-- A wrapper is taken off whatever its payload is. -/
theorem unwrap_wrapper (schema : Json) (payload : Members) :
    unwrap [("schema".toList, schema), ("payload".toList, .object payload)] = payload ∧
      unwrap [("payload".toList, .object payload), ("schema".toList, schema)] = payload :=
  ⟨rfl, rfl⟩

/-- An object with one of these keys is read as an object that has it. -/
theorem exists_members_of_key {depth : Nat} {t : Text} {fields : List (Text × Text)} {value : Json}
    (h : Json.IsObject depth fields t)
    (hkey : ∃ field ∈ fields, Json.SpellsKey "op".toList field.1 ∨
      Json.SpellsKey "historyRecord".toList field.1)
    (hread : Json.read? t = some value) :
    ∃ members : Members, value = .object members ∧
      ("op".toList ∈ members.keys ∨ "historyRecord".toList ∈ members.keys) := by
  obtain ⟨field, hfield, hop | hhistory⟩ := hkey
  · obtain ⟨members, hvalue, hmem⟩ := h.exists_members ⟨field, hfield, hop⟩ (by decide) hread
    exact ⟨members, hvalue, Or.inl hmem⟩
  · obtain ⟨members, hvalue, hmem⟩ := h.exists_members ⟨field, hfield, hhistory⟩ (by decide) hread
    exact ⟨members, hvalue, Or.inr hmem⟩

theorem decode_bytes (t : Text) :
    decode t.bytes = match Json.read? t with
      | none => .error .malformedPayload
      | some value => ofJson value := by
  have hbytes : Json.readBytes? t.bytes = Json.read? t := by
    rw [Json.readBytes?, Bytes.text?_bytes, Option.bind_some]
  unfold decode
  cases hread : Json.read? t with
  | none => rw [hbytes, hread]
  | some value => rw [hbytes, hread]

/-- **The wrapper is transparent**, for every schema that can be read. A
payload that has an operation or a history entry, with whatever value and
however often, is decoded inside a wrapper as it is alone, and refused there
if it is refused alone; so serializing gives the same record or fault and sends
the same. And nothing more than one wrapper is ever taken off. -/
theorem decode_of_wraps {schema payload wrapper : Text} {fields : List (Text × Text)}
    (hschema : Json.IsText 126 schema) (hread : (Json.read? schema).isSome = true)
    (hpayload : Json.IsObject 126 fields payload)
    (hkey : ∃ field ∈ fields, Json.SpellsKey "op".toList field.1 ∨
      Json.SpellsKey "historyRecord".toList field.1)
    (hwraps : Json.Wraps schema payload wrapper) :
    decode wrapper.bytes = decode payload.bytes ∧
      (∀ serializer : Serializer,
        serializer.serialize wrapper.bytes = serializer.serialize payload.bytes) ∧
      ∀ bytes envelope, decode bytes = .ok envelope →
        ∃ members : Members, Json.readBytes? bytes = some (.object members) ∧
          (envelope = ofObject (.object members) ∨
            ∃ inner, members.find? "payload".toList = some (.object inner) ∧
              envelope = ofObject (.object inner)) := by
  obtain ⟨s, hs⟩ := Option.isSome_iff_exists.1 hread
  have hdecode : decode wrapper.bytes = decode payload.bytes := by
    rw [decode_bytes, decode_bytes]
    cases hp : Json.read? payload with
    | none => rw [hwraps.read?_eq_none hschema hpayload.isText hp]
    | some p =>
      -- nothing is taken off the payload alone, and the wrapper only once
      obtain ⟨members, rfl, hmembers⟩ := exists_members_of_key hpayload hkey hp
      obtain ⟨hfirst, hlast⟩ := unwrap_wrapper s members
      have hplain := unwrap_of_mem_keys hmembers
      rcases hwraps.read? hschema hpayload.isText hs hp with hwrapper | hwrapper
      · rw [hwrapper]
        simp only [ofJson, ofMembers_eq, hfirst, hplain]
      · rw [hwrapper]
        simp only [ofJson, ofMembers_eq, hlast, hplain]
  refine ⟨hdecode, fun serializer => ?_, ?_⟩
  · rw [Serializer.serialize, Serializer.serialize, hdecode]
  · intro bytes envelope henvelope
    unfold decode at henvelope
    split at henvelope
    · cases henvelope
    · next value hvalue =>
      unfold ofJson at henvelope
      split at henvelope
      · next members =>
        cases henvelope
        refine ⟨members, hvalue, ?_⟩
        rcases unwrap_eq_or members with hplain | ⟨inner, hinner, hunwrap⟩
        · exact Or.inl (by rw [ofMembers_eq, hplain])
        · exact Or.inr ⟨inner, hinner, by rw [ofMembers_eq, hunwrap]⟩
      · cases henvelope

/-- An object of one member whose key has no escape and whose value is a
string without one. -/
theorem isObject_singleton (key value : Text) :
    Json.IsObject 126 [(key.quote, value.quote)]
      ([] ++ (Json.braced [] [Json.memberText (key.quote, value.quote)] ++ [])) := by
  exact .intro .nil .nil .nil (List.forall_mem_singleton.2 (Json.spellsKey_quote key).isKey)
    (List.forall_mem_singleton.2 (.string (.of_spellsText (spellsText_flatMap_escapeChar value))))

/-- With an empty schema behind it a row that is created is decoded as it is
alone. -/
theorem decode_of_wraps_row :
    let payload := "\x7b\"op\":\"c\"\x7d".toList
    let wrapper := "\x7b\"payload\":\x7b\"op\":\"c\"\x7d,\"schema\": \x7b\x7d\x7d".toList
    Json.IsText 126 "\x7b\x7d".toList ∧ (Json.read? "\x7b\x7d".toList).isSome = true ∧
      Json.Wraps "\x7b\x7d".toList payload wrapper ∧
      decode (Text.bytes wrapper) = decode (Text.bytes payload) ∧
      (decode (Text.bytes payload)).toOption.map kind = some (.row .create) := by
  intro payload wrapper
  have hspace : Json.IsMargin [' '] := by decide
  have hschema : Json.IsText 126 "\x7b\x7d".toList :=
    .object .nil (List.forall_mem_nil _) (List.forall_mem_nil _)
  have hread : (Json.read? "\x7b\x7d".toList).isSome = true := by decide +kernel
  have hpayload := isObject_singleton "op".toList "c".toList
  have hkey : ∃ field ∈ [(Text.quote "op".toList, Text.quote "c".toList)],
      Json.SpellsKey "op".toList field.1 ∨ Json.SpellsKey "historyRecord".toList field.1 :=
    ⟨_, List.mem_singleton_self _, Or.inl (Json.spellsKey_quote _)⟩
  have hwraps : Json.Wraps "\x7b\x7d".toList payload wrapper :=
    .intro .nil .nil .nil
      (Json.spellsKey_quote _) (Json.spellsKey_quote _)
      (.intro hspace .nil) (.intro .nil .nil) (Or.inr rfl)
  refine ⟨hschema, hread, hwraps, (decode_of_wraps hschema hread hpayload hkey hwraps).1, ?_⟩
  decide +kernel

/-- **A schema that is refused hides its payload.** This one is JSON: an object
with a number under the key that the reader keeps for numbers written as
strings. -/
theorem not_decode_of_wraps :
    let schema := "\x7b\"$serde_json::private::Number\":1\x7d".toList
    let payload := "\x7b\"op\":\"c\"\x7d".toList
    let wrapper :=
      "\x7b\"schema\":".toList ++ schema ++ ",\"payload\":".toList ++ payload ++ "\x7d".toList
    Json.IsText 126 schema ∧
      (∃ fields, Json.IsObject 126 fields payload ∧
        ∃ field ∈ fields, Json.SpellsKey "op".toList field.1) ∧
      Json.Wraps schema payload wrapper ∧
      decode (Text.bytes wrapper) ≠ decode (Text.bytes payload) := by
  intro schema payload wrapper
  have hone : Json.IsText 125 "1".toList := .number rfl
  have hkeys : ∀ field ∈ [(Json.numeralKey.quote, "1".toList)], Json.IsKey field.1 :=
    List.forall_mem_singleton.2 (Json.spellsKey_quote _).isKey
  have hschema : Json.IsText 126 schema :=
    .object .nil hkeys (List.forall_mem_singleton.2 hone)
  have hpayload := isObject_singleton "op".toList "c".toList
  have hwraps : Json.Wraps schema payload wrapper :=
    .intro .nil .nil .nil
      (Json.spellsKey_quote _) (Json.spellsKey_quote _)
      (.intro .nil .nil) (.intro .nil .nil) (Or.inl rfl)
  refine ⟨hschema, ⟨_, hpayload, _, List.mem_singleton_self _, Json.spellsKey_quote _⟩, hwraps, ?_⟩
  intro heq
  have hkind := congrArg (fun result => result.toOption.map kind) heq
  revert hkind
  decide +kernel

end Envelope

end ChangeFeed
