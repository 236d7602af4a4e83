import ChangeFeed.Proofs.Json.Inverse
import ChangeFeed.Proofs.Text.Digits
import Mathlib.Algebra.Group.Nat.Defs
/-!
# Acceptance — a JSON text is read as what it means, or not at all

The reader takes fewer texts than the grammar of JSON has: a surrogate without
its partner, a reserved key in front of anything but a number, and brackets
that nest too deep are refused. `judges` says that this is all that can happen,
inside any brackets: the text is read up to its end, as a value that it means,
or the reading fails within it. In particular no JSON text is read as part of
something else than what it is.
-/


namespace ChangeFeed

/-! ## Strings -/

namespace Quoted

/-- **A string that cannot be read** from here on, if a quote comes behind
what is left of it. -/
def Spoiled (q : Quoted) : Text → Prop
  | [] => q.step '\x22' = none
  | c :: rest => q.step c = none ∨ ∃ next, q.step c = some (.more next) ∧ next.Spoiled rest

variable {q next : Quoted} {high : Option Nat} {reversed s t : Text}

/-- What comes behind a part that can be read may spoil the whole. -/
theorem Spoiled.append (h : next.Spoiled t) (hrun : q.run s = some next) : q.Spoiled (s ++ t) := by
  induction s generalizing q with
  | nil =>
    cases hrun
    exact h
  | cons c s ih =>
    unfold Quoted.run at hrun
    split at hrun
    · next middle hstep => exact Or.inr ⟨middle, hstep, ih hrun⟩
    · cases hrun

/-- An escape whose value will not do. -/
theorem spoiled_hexValue? {digits : Text} {value total : Nat} (hne : digits ≠ [])
    (h : hexValue? value digits = some total) (hend : endUnit total high reversed = none)
    (rest : Text) : Spoiled ⟨.unit digits.length value high, reversed⟩ (digits ++ rest) := by
  induction digits generalizing value with
  | nil => exact absurd rfl hne
  | cons c digits ih =>
    obtain ⟨d, hd, hdigits⟩ := Option.bind_eq_some_iff.1 h
    cases digits with
    | nil =>
      cases hdigits
      exact Or.inl (by simp [step, hd, hend])
    | cons next digits =>
      have hdue : ¬ (c :: next :: digits).length ≤ 1 := by simp
      refine Or.inr ⟨⟨.unit (next :: digits).length (value * 16 + d) high, reversed⟩, ?_,
        ih (List.cons_ne_nil next digits) hdigits⟩
      simp [step, hd]

theorem spoiled_unit {digits : Text} {value : Nat} (h : unitValue? digits = some value)
    (hend : endUnit value high reversed = none) (rest : Text) :
    Spoiled ⟨.unit 4 0 high, reversed⟩ (digits ++ rest) := by
  unfold unitValue? at h
  split at h
  · next hlength =>
    have hne : digits ≠ [] := by
      rintro rfl
      cases hlength
    rw [← hlength]
    exact spoiled_hexValue? hne h hend rest
  · cases h

end Quoted

theorem lt_of_hexValue? {digits : Text} {value total : Nat}
    (h : hexValue? value digits = some total) : total < (value + 1) * 16 ^ digits.length := by
  induction digits generalizing value with
  | nil =>
    cases h
    simp
  | cons c digits ih =>
    obtain ⟨d, hd, hdigits⟩ := Option.bind_eq_some_iff.1 h
    have hdigit := lt_of_digitValue? hd
    calc total < (value * 16 + d + 1) * 16 ^ digits.length := ih hdigits
      _ ≤ ((value + 1) * 16) * 16 ^ digits.length := Nat.mul_le_mul_right _ (by omega)
      _ = (value + 1) * 16 ^ (c :: digits).length := by
        rw [List.length_cons, pow_succ, Nat.mul_assoc, Nat.mul_comm 16]

/-- The four digits of an escape give a number of sixteen bits. -/
theorem lt_of_unitValue? {digits : Text} {value : Nat} (h : unitValue? digits = some value) :
    value < 0x10000 := by
  unfold unitValue? at h
  split at h
  · next hlength =>
    have hlt := lt_of_hexValue? h
    rwa [hlength] at hlt
  · cases h

/-- The escapes of a high and of a low surrogate spell one character. -/
theorem exists_spellsChar_pair {high low : Text} {first second : Nat}
    (hhigh : unitValue? high = some first) (hlow : unitValue? low = some second)
    (hfirst : Quoted.isHigh first = true) (hsecond : Quoted.isLow second = true) :
    ∃ c, SpellsChar c ('\\' :: 'u' :: (high ++ '\\' :: 'u' :: low)) := by
  have hrange : first < 0xDC00 ∧ second < 0xE000 := by
    simp only [Quoted.isHigh, Quoted.isLow, Bool.and_eq_true, decide_eq_true_eq] at hfirst hsecond
    exact ⟨hfirst.2, hsecond.2⟩
  have hvalid : (0x10000 + (first - 0xD800) * 0x400 + (second - 0xDC00)).isValidChar :=
    Or.inr ⟨by omega, by omega⟩
  exact ⟨Char.ofNatAux _ hvalid, .pair hhigh hlow hfirst hsecond rfl⟩

/-- The escape of any other number spells one. -/
theorem exists_spellsChar_unit {digits : Text} {value : Nat} (h : unitValue? digits = some value)
    (hhigh : Quoted.isHigh value = false) (hlow : Quoted.isLow value = false) :
    ∃ c, SpellsChar c ('\\' :: 'u' :: digits) := by
  have hlt := lt_of_unitValue? h
  have hvalid : value.isValidChar := by
    simp only [Quoted.isHigh, Bool.and_eq_false_iff, decide_eq_false_iff_not] at hhigh
    simp only [Quoted.isLow, Bool.and_eq_false_iff, decide_eq_false_iff_not] at hlow
    show value < 0xD800 ∨ 0xDFFF < value ∧ value < 0x110000
    omega
  exact ⟨Char.ofNatAux value hvalid, .unit h⟩

namespace Quoted

/-- What may stand between quotes spells a text or cannot be read. -/
def Decides (inside : Text) : Prop :=
  (∃ text, SpellsText text inside) ∨ ∀ reversed, Spoiled ⟨.closed, reversed⟩ inside

/-- What may stand behind a high surrogate begins with a low one and spells a
text from there, or it cannot be read. -/
def DecidesPartner (inside : Text) : Prop :=
  (∃ low second rest text, inside = '\\' :: 'u' :: (low ++ rest) ∧ unitValue? low = some second ∧
    isLow second = true ∧ SpellsText text rest) ∨
  ∀ high reversed, Spoiled ⟨.partner high, reversed⟩ inside

variable {c : Char} {digits : Text} {value : Nat}

theorem Decides.cons (h : Decides t) (hchar : SpellsChar c s) : Decides (s ++ t) := by
  rcases h with ⟨text, htext⟩ | hspoiled
  · exact Or.inl ⟨c :: text, .cons hchar htext⟩
  · exact Or.inr fun reversed => (hspoiled _).append (hchar.run reversed)

/-- An escape that is no low surrogate leaves a high one without a partner. -/
theorem decidesPartner_unit (hdigits : unitValue? digits = some value) (h : Decides t) :
    DecidesPartner ('\\' :: 'u' :: (digits ++ t)) := by
  have hopen : ∀ high reversed, Spoiled ⟨.unit 4 0 (some high), reversed⟩ (digits ++ t) →
      Spoiled ⟨.partner high, reversed⟩ ('\\' :: 'u' :: (digits ++ t)) :=
    fun high reversed hspoiled => Or.inr ⟨_, rfl, Or.inr ⟨_, rfl, hspoiled⟩⟩
  cases hlow : isLow value with
  | false =>
    refine Or.inr fun high reversed => hopen high reversed ?_
    exact spoiled_unit hdigits (by simp [endUnit, hlow]) t
  | true =>
    rcases h with ⟨text, htext⟩ | hspoiled
    · exact Or.inl ⟨digits, value, t, text, rfl, hdigits, hlow, htext⟩
    · refine Or.inr fun high reversed => hopen high reversed ?_
      have hpair := run_unit hdigits (some high) reversed
      rw [endUnit, if_pos hlow] at hpair
      exact (hspoiled _).append hpair

/-- A high surrogate is decided by what comes behind it, a low one is never
read, and any other escape is a character. -/
theorem decides_unit (hdigits : unitValue? digits = some value) (h : Decides t)
    (hpartner : DecidesPartner t) : Decides ('\\' :: 'u' :: (digits ++ t)) := by
  have hopen : ∀ reversed, Spoiled ⟨.unit 4 0 none, reversed⟩ (digits ++ t) →
      Spoiled ⟨.closed, reversed⟩ ('\\' :: 'u' :: (digits ++ t)) :=
    fun reversed hspoiled => Or.inr ⟨_, rfl, Or.inr ⟨_, rfl, hspoiled⟩⟩
  cases hhigh : isHigh value with
  | true =>
    rcases hpartner with ⟨low, second, rest, text, rfl, hlow, hsecond, htext⟩ | hspoiled
    · obtain ⟨c, hchar⟩ := exists_spellsChar_pair hdigits hlow hhigh hsecond
      have hall := Decides.cons (Or.inl ⟨text, htext⟩) hchar
      simpa using hall
    · refine Or.inr fun reversed => hopen reversed ?_
      have hwait := run_unit hdigits none reversed
      rw [endUnit, if_pos hhigh] at hwait
      exact (hspoiled value reversed).append hwait
  | false =>
    cases hlow : isLow value with
    | true =>
      refine Or.inr fun reversed => hopen reversed ?_
      exact spoiled_unit hdigits (by simp [endUnit, hhigh, hlow]) t
    | false =>
      obtain ⟨c, hchar⟩ := exists_spellsChar_unit hdigits hhigh hlow
      exact h.cons hchar

end Quoted

/-- **What may stand between quotes spells a text, or cannot be read.** The
induction needs the same of what may stand behind a high surrogate. -/
theorem IsQuoted.decides {inside : Text} (h : IsQuoted inside) :
    Quoted.Decides inside ∧ Quoted.DecidesPartner inside := by
  induction h with
  | nil => exact ⟨Or.inl ⟨[], .nil⟩, Or.inr fun _ _ => rfl⟩
  | plain hquote hslash hcontrol _ ih =>
    exact ⟨ih.1.cons (.plain hquote hslash hcontrol),
      Or.inr fun _ _ => Or.inl (by simp [Quoted.step, hslash])⟩
  | @escape letter c t hletter _ ih =>
    have hne : letter ≠ 'u' := by
      rintro rfl
      cases hletter
    refine ⟨ih.1.cons (.escape hletter), Or.inr fun high reversed => Or.inr ⟨_, rfl, Or.inl ?_⟩⟩
    simp [Quoted.step, hne]
  | unit hdigits _ ih =>
    exact ⟨Quoted.decides_unit hdigits ih.1 ih.2, Quoted.decidesPartner_unit hdigits ih.1⟩

namespace Reading

/-- A string that cannot be read spoils the reading that hands it its
characters. -/
theorem run_of_spoiled {wrap : Quoted → Phase} {stack : List Frame}
    (hmore : ∀ q c next, q.step c = some (.more next) →
      step ⟨wrap q, stack⟩ c = some ⟨wrap next, stack⟩)
    (hnone : ∀ q c, q.step c = none → step ⟨wrap q, stack⟩ c = none)
    {q : Quoted} {inside : Text} (h : q.Spoiled inside) (rest : Text) :
    run ⟨wrap q, stack⟩ (inside ++ '\x22' :: rest) = none := by
  induction inside generalizing q with
  | nil => rw [List.nil_append, run, hnone q _ h, Option.bind_none]
  | cons c inside ih =>
    rcases h with hstep | ⟨next, hstep, hspoiled⟩
    · rw [List.cons_append, run, hnone q c hstep, Option.bind_none]
    · rw [List.cons_append, run, hmore q c next hstep, Option.bind_some, ih hspoiled]

variable {text keyText valueText margin : Text} {stack : List Frame} {value : Json} {depth : Nat}

/-- What cannot be read is not read with more behind it. -/
theorem run_append_of_none {r : Reading} (h : r.run text = none) (rest : Text) :
    r.run (text ++ rest) = none := by
  rw [run_append, h, Option.bind_none]

/-- A first part that cannot be read spoils all that is joined. -/
theorem run_joined_of_none {r : Reading} {part : Text} (h : ∀ rest, r.run (part ++ rest) = none)
    (parts : List Text) (rest : Text) :
    r.run (Text.joined [','] (part :: parts) ++ rest) = none := by
  obtain ⟨tail, htail⟩ := Text.exists_joined_cons [','] part parts
  rw [htail, List.append_assoc]
  exact h _

/-- A value that begins with a quote is the string behind it. -/
theorem run_string_of_spoiled {inside : Text} (h : Quoted.Spoiled .start inside) (rest : Text) :
    run ⟨.value, stack⟩ ('\x22' :: (inside ++ '\x22' :: rest)) = none := by
  have hstart : step ⟨.value, stack⟩ '\x22' = some ⟨.string .start, stack⟩ := by
    simp [step, beginValue, Json.isGap]
  rw [run, hstart, Option.bind_some]
  exact run_of_spoiled (fun q c next hstep => by simp [step, hstep])
    (fun q c hstep => by simp [step, hstep]) h rest

theorem run_key_of_spoiled {inside : Text} (h : Quoted.Spoiled .start inside) (rest : Text) :
    run ⟨.key, stack⟩ ('\x22' :: (inside ++ '\x22' :: rest)) = none := by
  have hstart : step ⟨.key, stack⟩ '\x22' = some ⟨.keyString .start, stack⟩ := by
    simp [step, beginKey, Json.isGap]
  rw [run, hstart, Option.bind_some]
  exact run_of_spoiled (fun q c next hstep => by simp [step, hstep])
    (fun q c hstep => by simp [step, hstep]) h rest

/-! ## Keys -/

/-- **A key is read as what it spells**, or not at all. -/
theorem spellsKey_or_none (h : Json.IsKey keyText) :
    (∃ key, Json.SpellsKey key keyText) ∨
      ∀ (stack : List Frame) (rest : Text), run ⟨.key, stack⟩ (keyText ++ rest) = none := by
  obtain ⟨hbefore, hinside, hafter⟩ := h
  rcases hinside.decides.1 with ⟨key, hkey⟩ | hspoiled
  · exact Or.inl ⟨key, .quoted hbefore hkey hafter⟩
  · refine Or.inr fun stack rest => ?_
    rw [List.append_assoc, run_margin rfl hbefore]
    simpa using run_key_of_spoiled (hspoiled []) _

/-- What stands for a key stands for that key only. -/
theorem eq_of_spellsKey {key other : Text} (h : Json.SpellsKey key keyText)
    (hother : Json.SpellsKey other keyText) : key = other := by
  have hread : ∀ {key : Text}, Json.SpellsKey key keyText →
      run ⟨.key, [.object [([], .null)] []]⟩ (keyText ++ [':']) =
        some ⟨.value, [.object [([], .null)] key]⟩ := by
    intro key h
    -- behind another member no key is the reserved one
    exact run_key h (endKey_of_ne (fun hnil => absurd hnil (List.cons_ne_nil _ _)) []) []
  have heq := (hread h).symm.trans (hread hother)
  simpa using heq

/-- A member whose key cannot be read. -/
theorem run_member_of_key
    (h : ∀ (stack : List Frame) (rest : Text), run ⟨.key, stack⟩ (keyText ++ rest) = none)
    (rest : Text) : run ⟨.key, stack⟩ (Json.memberText (keyText, valueText) ++ rest) = none := by
  rw [Json.memberText, List.append_assoc]
  exact h _ _

/-- A member whose value cannot be read. -/
theorem run_member_of_value {key : Text} {inner : List Frame} (hkey : Json.SpellsKey key keyText)
    (hend : endKey key stack = some ⟨.colon, inner⟩) (h : run ⟨.value, inner⟩ valueText = none)
    (rest : Text) : run ⟨.key, stack⟩ (Json.memberText (keyText, valueText) ++ rest) = none := by
  rw [run_member hkey hend]
  exact run_append_of_none h rest

/-! ## Arrays and objects -/

/-- **A text is judged**: it is read up to its end, as a value that it means,
or the reading fails within it. -/
def Judges (depth : Nat) (text : Text) (stack : List Frame) : Prop :=
  run ⟨.value, stack⟩ text = none ∨ ∃ value, Json.Means depth value text ∧ Reads value text stack

/-- What is read of items that are due. -/
theorem judges_items {items : List Text} (reversed : List Json) (hne : items ≠ [])
    (h : ∀ item ∈ items, ∀ frame, Judges depth item (frame :: stack)) :
    run ⟨.value, .array reversed :: stack⟩ (Text.joined [','] items ++ [']']) = none ∨
      ∃ spelled : List (Json × Text), spelled.map Prod.snd = items ∧
        (∀ item ∈ spelled, Json.Means depth item.1 item.2) ∧
        run ⟨.value, .array reversed :: stack⟩ (Text.joined [','] items ++ [']']) =
          some ⟨.complete (.array (reversed.reverse ++ spelled.map Prod.fst)), stack⟩ := by
  induction items generalizing reversed with
  | nil => exact absurd rfl hne
  | cons item rest ih =>
    obtain ⟨hitem, hrest⟩ := List.forall_mem_cons.1 h
    -- a refused item ends the reading here, whatever comes behind it
    rcases hitem (.array reversed) with hnone | ⟨value, hmeans, hreads⟩
    · exact Or.inl (run_joined_of_none (run_append_of_none hnone) rest _)
    cases rest with
    | nil =>
      refine Or.inr ⟨[(value, item)], rfl, List.forall_mem_singleton.2 hmeans, ?_⟩
      have hlast := run_lastItem hreads
      rwa [List.reverse_cons] at hlast
    | cons next rest =>
      rw [Text.joined_cons (by simp), List.append_assoc, List.append_assoc, run_nextItem hreads]
      rcases ih (value :: reversed) (by simp) hrest with hnone | ⟨spelled, htexts, hall, hrun⟩
      · exact Or.inl hnone
      · refine Or.inr ⟨(value, item) :: spelled, by simp [htexts],
          List.forall_mem_cons.2 ⟨hmeans, hall⟩, ?_⟩
        rw [hrun]
        simp

/-- What is read of members that are due, behind others or where the first
key is not the reserved one. -/
theorem judges_members {fields : List (Text × Text)} (members : Members) (old : Text)
    (hne : fields ≠ [])
    (hfirst : members = [] → ∀ field ∈ fields.head?, ¬ Json.SpellsKey Json.numeralKey field.1)
    (hkeys : ∀ field ∈ fields, Json.IsKey field.1)
    (h : ∀ field ∈ fields, ∀ frame, Judges depth field.2 (frame :: stack)) :
    run ⟨.key, .object members old :: stack⟩
        (Text.joined [','] (fields.map Json.memberText) ++ ['\x7d']) = none ∨
      ∃ spelled : List Json.SpelledMember, spelled.map Json.SpelledMember.texts = fields ∧
        (∀ member ∈ spelled, Json.SpellsKey member.key member.keyText) ∧
        (∀ member ∈ spelled, Json.Means depth member.value member.valueText) ∧
        run ⟨.key, .object members old :: stack⟩
            (Text.joined [','] (fields.map Json.memberText) ++ ['\x7d']) =
          some ⟨.complete (.object (members.putAll (spelled.map Json.SpelledMember.member))),
            stack⟩ := by
  induction fields generalizing members old with
  | nil => exact absurd rfl hne
  | cons field rest ih =>
    obtain ⟨keyText, valueText⟩ := field
    obtain ⟨hkey, hkeys⟩ := List.forall_mem_cons.1 hkeys
    obtain ⟨hvalue, hrest⟩ := List.forall_mem_cons.1 h
    rw [List.map_cons]
    rcases spellsKey_or_none hkey with ⟨key, hspells⟩ | hnone
    case inr => exact Or.inl (run_joined_of_none (run_member_of_key hnone) _ _)
    have hreserved : members = [] → key ≠ Json.numeralKey := by
      rintro hnil rfl
      exact hfirst hnil _ rfl hspells
    rcases hvalue (.object members key) with hnone | ⟨value, hmeans, hreads⟩
    · exact Or.inl (run_joined_of_none
        (run_member_of_value hspells (endKey_of_ne hreserved old) hnone) _ _)
    cases rest with
    | nil =>
      exact Or.inr ⟨[⟨key, keyText, value, valueText⟩], rfl, List.forall_mem_singleton.2 hspells,
        List.forall_mem_singleton.2 hmeans, run_lastMember hspells hreserved hreads⟩
    | cons next rest =>
      rw [List.map_cons, Text.joined_cons (by simp), List.append_assoc, List.append_assoc,
        run_nextMember hspells hreserved hreads]
      rcases ih (members.put key value) [] (by simp)
        (fun hnil => absurd hnil (Members.put_ne_nil _ _ _)) hkeys hrest with
        hnone | ⟨spelled, htexts, hall, hmeansAll, hrun⟩
      · exact Or.inl hnone
      · refine Or.inr ⟨⟨key, keyText, value, valueText⟩ :: spelled, ?_,
          List.forall_mem_cons.2 ⟨hspells, hall⟩, List.forall_mem_cons.2 ⟨hmeans, hmeansAll⟩, hrun⟩
        rw [List.map_cons, htexts]
        rfl

/-- A comma behind what should be a number spoils it. -/
theorem run_numeral_comma (hkey : Json.SpellsKey Json.numeralKey keyText) (old rest : Text)
    (h : Reads value valueText (.numeral :: stack)) :
    run ⟨.key, .object [] old :: stack⟩
      (Json.memberText (keyText, valueText) ++ ([','] ++ rest)) = none := by
  obtain ⟨r, hrun, hsettled⟩ := h
  have hcomma := hsettled.step (c := ',') (by decide)
  rw [run_member hkey (endKey_numeralKey old), run_append, hrun, Option.bind_some,
    List.singleton_append, run, hcomma]
  simp [afterValue, Json.isGap]

/-- **What is read of an object**: all its members, or the number that it
stands for, or nothing. -/
theorem judges_object {fields : List (Text × Text)} (stack : List Frame)
    (hmargin : Json.IsMargin margin) (hkeys : ∀ field ∈ fields, Json.IsKey field.1)
    (h : ∀ field ∈ fields, ∀ frame, Judges depth field.2 (frame :: stack)) :
    run ⟨.value, stack⟩ (Json.braced margin (fields.map Json.memberText)) = none ∨
      (∃ spelled : List Json.SpelledMember, spelled.map Json.SpelledMember.texts = fields ∧
        (spelled.map Json.SpelledMember.key).head? ≠ some Json.numeralKey ∧
        (∀ member ∈ spelled, Json.SpellsKey member.key member.keyText) ∧
        (∀ member ∈ spelled, Json.Means depth member.value member.valueText) ∧
        Reads (.object (Members.putAll [] (spelled.map Json.SpelledMember.member)))
          (Json.braced margin (fields.map Json.memberText)) stack) ∨
      ∃ keyText valueText inner numeral, fields = [(keyText, valueText)] ∧
        Json.SpellsKey Json.numeralKey keyText ∧ Json.Means depth (.string inner) valueText ∧
        numeral? inner = some numeral ∧
        Reads (.number numeral) (Json.braced margin (fields.map Json.memberText)) stack := by
  by_cases hroom : stack.length < Json.maxDepth
  case neg =>
    left
    simp [Json.braced, run, step, Json.isGap, beginValue, openBracket, hroom]
  have hopen : run ⟨.value, stack⟩ (Json.braced margin (fields.map Json.memberText)) =
      run ⟨.firstKey, .object [] [] :: stack⟩
        (Text.joined [','] (fields.map Json.memberText) ++ ['\x7d']) := by
    rw [Json.braced, run, (step_open hroom).2, Option.bind_some, run_margin rfl hmargin]
  cases fields with
  | nil =>
    exact Or.inr (Or.inl ⟨[], rfl, (Option.some_ne_none _).symm, List.forall_mem_nil _,
      List.forall_mem_nil _, _, hopen.trans rfl, .complete⟩)
  | cons field rest =>
    obtain ⟨keyText, valueText⟩ := field
    rw [run_firstKeys (List.cons_ne_nil _ rest) hkeys] at hopen
    rcases spellsKey_or_none (hkeys _ List.mem_cons_self) with ⟨key, hspells⟩ | hnone
    case inr => exact Or.inl (hopen.trans (run_joined_of_none (run_member_of_key hnone) _ _))
    by_cases hreserved : key = Json.numeralKey
    · -- the object stands for a number, so its value is read inside another bracket
      subst hreserved
      rcases h _ List.mem_cons_self .numeral with hnone | ⟨value, hmeans, hreads⟩
      · exact Or.inl (hopen.trans (run_joined_of_none
          (run_member_of_value hspells (endKey_numeralKey []) hnone) _ _))
      cases rest with
      | nil =>
        have hrun := hopen.trans (run_numeral hspells hreads)
        cases hnumber : value.ofNumeral? with
        | none =>
          rw [hnumber] at hrun
          exact Or.inl hrun
        | some number =>
          obtain ⟨inner, rfl, numeral, hnumeral, rfl⟩ := Json.ofNumeral?_eq_some_iff.1 hnumber
          rw [hnumber] at hrun
          exact Or.inr (Or.inr ⟨keyText, valueText, inner, numeral, rfl, hspells, hmeans, hnumeral,
            _, hrun, .complete⟩)
      | cons next rest =>
        left
        rw [hopen, List.map_cons, List.map_cons, Text.joined_cons (by simp), List.append_assoc,
          List.append_assoc, run_numeral_comma hspells _ _ hreads]
    · have hfirst : ∀ field ∈ ((keyText, valueText) :: rest).head?,
          ¬ Json.SpellsKey Json.numeralKey field.1 := by
        rintro field hfield hkey
        cases hfield
        exact hreserved (eq_of_spellsKey hspells hkey)
      rcases judges_members [] [] (List.cons_ne_nil _ rest) (fun _ => hfirst) hkeys h with
        hnone | ⟨spelled, htexts, hall, hmeans, hrun⟩
      · exact Or.inl (hopen.trans hnone)
      · refine Or.inr (Or.inl ⟨spelled, htexts, ?_, hall, hmeans, _, hopen.trans hrun, .complete⟩)
        intro hhead
        cases spelled with
        | nil => cases hhead
        | cons member others =>
          have hkey := hall member List.mem_cons_self
          rw [Option.some.inj hhead] at hkey
          rw [List.map_cons, List.cons.injEq] at htexts
          exact hfirst _ rfl (congrArg Prod.fst htexts.1 ▸ hkey)

/-- **Every JSON text is judged**, inside any brackets. -/
theorem judges (h : Json.IsText depth text) (stack : List Frame) : Judges depth text stack := by
  induction h generalizing stack with
  | null => exact Or.inr ⟨.null, .null, _, rfl, .complete⟩
  | bool b => cases b <;> exact Or.inr ⟨_, .bool _, _, rfl, .complete⟩
  | number h => exact Or.inr ⟨_, .number h, reads_number h⟩
  | string h =>
    rcases h.decides.1 with ⟨text, htext⟩ | hspoiled
    · exact Or.inr ⟨.string text, .string htext, _, run_quoted htext stack, .complete⟩
    · exact Or.inl (run_string_of_spoiled (hspoiled []) [])
  | @array depth margin items hmargin hitems ih =>
    -- the brackets outside count, so it is the stack that says if there is room
    by_cases hroom : stack.length < Json.maxDepth
    · have hopen : run ⟨.value, stack⟩ (Json.squared margin items) =
          run ⟨.firstItem, .array [] :: stack⟩ (Text.joined [','] items ++ [']']) := by
        rw [Json.squared, run, (step_open hroom).1, Option.bind_some, run_margin rfl hmargin]
      cases items with
      | nil =>
        exact Or.inr ⟨_, .array hmargin (List.forall_mem_nil _), _, hopen.trans rfl, .complete⟩
      | cons item rest =>
        rw [run_firstItems (List.cons_ne_nil item rest) hitems] at hopen
        rcases judges_items [] (List.cons_ne_nil item rest)
          (fun item hitem frame => ih item hitem (frame :: stack)) with
          hnone | ⟨spelled, htexts, hmeans, hrun⟩
        · exact Or.inl (hopen.trans hnone)
        · have harray := Json.Means.array hmargin hmeans
          rw [htexts] at harray
          exact Or.inr ⟨_, harray, _, hopen.trans hrun, .complete⟩
    · left
      simp [Json.squared, run, step, Json.isGap, beginValue, openBracket, hroom]
  | @object depth margin fields hmargin hkeys _ ih =>
    rcases judges_object stack hmargin hkeys (fun field hfield frame =>
      ih field hfield (frame :: stack)) with
      hnone | ⟨spelled, rfl, hfirst, hspells, hmeans, hreads⟩ |
      ⟨keyText, valueText, inner, numeral, rfl, hkey, hmeans, hnumeral, hreads⟩
    · exact Or.inl hnone
    · have hobject := Json.Means.object hmargin hfirst hspells hmeans
      rw [← Json.SpelledMember.map_memberText] at hobject
      exact Or.inr ⟨_, hobject, hreads⟩
    · exact Or.inr ⟨_, .numeral hmargin hkey hmeans hnumeral, hreads⟩
  | margin hbefore _ hafter ih =>
    rcases ih stack with hnone | ⟨value, hmeans, hreads⟩
    · left
      rw [run_margin rfl hbefore]
      exact run_append_of_none hnone _
    · exact Or.inr ⟨value, .margin hbefore hmeans hafter, hreads.surrounded hbefore hafter⟩

end Reading

namespace Json

variable {depth : Nat} {t : Text} {value : Json}

/-- **A JSON text that is read has that meaning.** -/
theorem IsText.means_of_read? (h : IsText depth t) (hread : read? t = some value) :
    Means depth value t := by
  rcases Reading.judges h [] with hnone | ⟨other, hmeans, hreads⟩
  · rw [read?, Reading.start, hnone] at hread
    cases hread
  · rw [hreads.read?] at hread
    cases hread
    exact hmeans

/-- **A value that is refused takes the object around it along.** -/
theorem IsObject.read?_eq_none {fields : List (Text × Text)} {field : Text × Text}
    (h : IsObject depth fields t) (hdepth : depth ≤ maxDepth) (hfield : field ∈ fields)
    (hread : read? field.2 = none) : read? t = none := by
  have hrefused : ∀ {inner value}, inner + 1 ≤ maxDepth → ¬ Means inner value field.2 := by
    intro inner value hinner hmeans
    rw [hmeans.read? (Nat.le_of_succ_le hinner)] at hread
    cases hread
  obtain ⟨hbefore, hmargin, hafter, hkeys, h⟩ := h
  rw [read?_margin hbefore hafter]
  rcases Reading.judges_object [] hmargin hkeys
    (fun field hfield frame => Reading.judges (h field hfield) [frame]) with
    hnone | ⟨spelled, rfl, -, -, hall, -⟩ | ⟨keyText, valueText, _, _, rfl, -, hinner, -⟩
  · rw [read?, Reading.start, hnone, Option.bind_none]
  · obtain ⟨member, hmember, rfl⟩ := List.mem_map.1 hfield
    exact absurd (hall member hmember) (hrefused hdepth)
  · rw [List.mem_singleton.1 hfield] at hrefused
    exact absurd hinner (hrefused hdepth)

/-- **An object that is read has all its keys**, unless it stands for a
number. -/
theorem IsObject.exists_members {fields : List (Text × Text)} {key : Text}
    (h : IsObject depth fields t) (hkey : ∃ field ∈ fields, SpellsKey key field.1)
    (hne : key ≠ numeralKey) (hread : read? t = some value) :
    ∃ members : Members, value = .object members ∧ key ∈ members.keys := by
  obtain ⟨hbefore, hmargin, hafter, hkeys, h⟩ := h
  obtain ⟨field, hfield, hspells⟩ := hkey
  rw [read?_margin hbefore hafter] at hread
  rcases Reading.judges_object [] hmargin hkeys
    (fun field hfield frame => Reading.judges (h field hfield) [frame]) with
    hnone | ⟨spelled, rfl, -, hall, -, hreads⟩ | ⟨keyText, valueText, _, _, rfl, hreserved, -⟩
  · rw [read?, Reading.start, hnone] at hread
    cases hread
  · rw [hreads.read?] at hread
    cases hread
    obtain ⟨member, hmember, rfl⟩ := List.mem_map.1 hfield
    refine ⟨_, rfl, Members.mem_keys_putAll.2 (Or.inr ?_)⟩
    rw [Reading.eq_of_spellsKey hspells (hall member hmember)]
    exact List.mem_map_of_mem (List.mem_map_of_mem hmember)
  · -- its one key is the reserved one
    rw [List.mem_singleton.1 hfield] at hspells
    exact absurd (Reading.eq_of_spellsKey hspells hreserved) hne

end Json

end ChangeFeed
