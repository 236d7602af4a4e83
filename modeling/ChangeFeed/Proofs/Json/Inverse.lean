import ChangeFeed.Proofs.Json.Grammar
/-!
# Reading back — every text of a value is read as that value

A value is read character by character, with what surrounds it on the stack,
so the statement that goes through by induction is about any stack: `reads`
says that a text, where there is room for it, leaves the reading at the value
that it means. A number alone is not at its end there, since more digits could
follow; `Settled` allows for it. What is written is one of the texts of a value
(`read?_write`), and it holds no control character.
-/


namespace ChangeFeed

namespace Json

variable {items : List Json} {members : Members} {value : Json} {room : Nat}

/-! ## Written values are plain -/

theorem isPlain_joined {parts : List Text} (h : ∀ part ∈ parts, part.IsPlain) :
    (Text.joined [','] parts).IsPlain := by
  intro c hc
  rcases Text.mem_joined hc with hcomma | ⟨part, hpart, hc⟩
  · rw [List.mem_singleton.1 hcomma]
    decide
  · exact h part hpart c hc

/-- **A readable value is written on one line.** -/
theorem Readable.isPlain_write (h : value.Readable room) : value.write.IsPlain := by
  induction h with
  | null =>
    rw [write]
    decide
  | bool b =>
    cases b
    all_goals
      rw [write]
      decide
  | number h =>
    obtain ⟨phase, text, hspelled, -, rfl⟩ := spelled_of_numeral? h
    rw [write]
    exact fun c hc => hspelled.isPlain c (List.mem_reverse.1 hc)
  | string text =>
    rw [write]
    exact text.isPlain_quote
  | array _ ih =>
    have hitems := isPlain_joined (List.forall_mem_map.2 ih)
    rw [write, writeItems_eq_joined, Text.isPlain_cons, Text.isPlain_append, Text.isPlain_cons]
    exact ⟨by decide, hitems, by decide, Text.isPlain_nil⟩
  | object _ _ ih =>
    have hmembers := isPlain_joined (List.forall_mem_map.2 fun member hmember => by
      show (writeMember member).IsPlain
      rw [writeMember, Text.isPlain_append, Text.isPlain_cons]
      exact ⟨Text.isPlain_quote member.1, by decide, ih member hmember⟩)
    rw [write, writeMembers_eq_joined, Text.isPlain_cons, Text.isPlain_append, Text.isPlain_cons]
    exact ⟨by decide, hmembers, by decide, Text.isPlain_nil⟩

end Json

namespace Reading

variable {members : Members} {value : Json} {text margin : Text} {stack : List Frame} {room : Nat}

/-! ## White space -/

/-- White space may stand here. -/
def waits : Phase → Bool
  | .value | .firstItem | .key | .firstKey | .colon | .complete _ => true
  | _ => false

/-- Where white space may stand it changes nothing. -/
theorem step_of_isGap {phase : Phase} {c : Char} (hphase : waits phase = true)
    (hc : Json.isGap c = true) : step ⟨phase, stack⟩ c = some ⟨phase, stack⟩ := by
  cases phase with
  | value | firstItem | key | firstKey | colon | complete => exact if_pos hc
  | _ => cases hphase

theorem run_margin {phase : Phase} (hphase : waits phase = true) (hmargin : Json.IsMargin margin)
    (rest : Text) : run ⟨phase, stack⟩ (margin ++ rest) = run ⟨phase, stack⟩ rest := by
  induction margin with
  | nil => rfl
  | cons c margin ih =>
    obtain ⟨hc, hmargin⟩ := List.forall_mem_cons.1 hmargin
    rw [List.cons_append, run, step_of_isGap hphase hc, Option.bind_some, ih hmargin]

/-- A text may end here, if no bracket is open. -/
def mayEnd : Phase → Bool
  | .complete _ => true
  | .number phase _ => phase.isComplete
  | _ => false

theorem finish_of_not_mayEnd {phase : Phase} (h : mayEnd phase = false) :
    finish ⟨phase, stack⟩ = none := by
  cases stack with
  | nil => cases phase <;> simp_all [finish, mayEnd]
  | cons frame rest => rfl

/-- White space may stand right behind a number. -/
theorem mem_ends_of_isGap {c : Char} (hc : Json.isGap c = true) : c ∈ NumberPhase.ends := by
  simp only [Json.isGap, Bool.or_eq_true, decide_eq_true_eq] at hc
  rcases hc with ((rfl | rfl) | rfl) | rfl <;> decide

/-- **White space behind a text neither completes a value nor spoils one.** -/
theorem finish_step_of_isGap {r : Reading} {c : Char} (h : r.Sound) (hc : Json.isGap c = true) :
    (r.step c).bind finish = r.finish := by
  obtain ⟨phase, stack⟩ := r
  cases phase with
  | value | firstItem | key | firstKey | colon | complete =>
    rw [step_of_isGap rfl hc, Option.bind_some]
  | string q | keyString q =>
    rw [finish_of_not_mayEnd rfl, Option.bind_eq_none_iff]
    intro next hnext
    cases hstep : q.step c with
    | none => simp [step, hstep] at hnext
    | some more =>
      cases more with
      | more inner =>
        simp only [step, hstep, Option.some.injEq] at hnext
        subst hnext
        exact finish_of_not_mayEnd rfl
      | ends t =>
        cases (Quoted.eq_quote_of_ends hstep).1
        cases hc
  | number phase reversed =>
    have hafter : afterValue (.number reversed.reverse) stack c = some ⟨.complete _, stack⟩ :=
      if_pos hc
    have hends : phase.next? c = none := NumberPhase.next?_of_mem_ends (mem_ends_of_isGap hc)
    simp only [step, hends, hafter]
    cases hcomplete : phase.isComplete <;> cases stack <;> simp [finish, hcomplete]
  | word due value =>
    obtain ⟨hdue, hletters, -⟩ := h.phase
    have hne : ∀ d ∈ due, c ≠ d := by
      rintro d hd rfl
      rw [hletters _ hd] at hc
      cases hc
    have hstep : step ⟨.word due value, stack⟩ c = none := by
      simp only [step]
      grind
    rw [hstep, finish_of_not_mayEnd rfl]
    rfl

/-! ## The end of a value -/

/-- **The reading stands at the end of a value.** -/
inductive Settled (value : Json) (stack : List Frame) : Reading → Prop where
  | complete : Settled value stack ⟨.complete value, stack⟩
  /-- A number may go on, and this one may also end. -/
  | number {phase : NumberPhase} {reversed : Text} (hcomplete : phase.isComplete = true)
      (hvalue : value = .number reversed.reverse) :
      Settled value stack ⟨.number phase reversed, stack⟩

namespace Settled

variable {r : Reading}

/-- What may stand behind a value is read as standing after it. -/
theorem step (h : Settled value stack r) {c : Char} (hc : c ∈ NumberPhase.ends) :
    r.step c = afterValue value stack c := by
  cases h with
  | complete => rfl
  | number hcomplete hvalue =>
    simp only [Reading.step, NumberPhase.next?_of_mem_ends hc, hcomplete, if_true, hvalue]

/-- White space behind a value ends it. -/
theorem run_margin (h : Settled value stack r) (hmargin : Json.IsMargin margin) :
    ∃ next, r.run margin = some next ∧ Settled value stack next := by
  cases margin with
  | nil => exact ⟨r, rfl, h⟩
  | cons c margin =>
    obtain ⟨hc, hmargin⟩ := List.forall_mem_cons.1 hmargin
    have hends := mem_ends_of_isGap hc
    have hafter : afterValue value stack c = some ⟨.complete value, stack⟩ := if_pos hc
    have hrest : run ⟨.complete value, stack⟩ (margin ++ []) = some ⟨.complete value, stack⟩ :=
      Reading.run_margin rfl hmargin []
    rw [List.append_nil] at hrest
    exact ⟨_, by rw [run, h.step hends, hafter, Option.bind_some, hrest], .complete⟩

/-- At the end of the text the value is read. -/
theorem finish (h : Settled value [] r) : r.finish = some value := by
  cases h with
  | complete => rfl
  | number hcomplete hvalue =>
    simp only [Reading.finish, hcomplete, if_true, hvalue]

end Settled

/-- **A text is read as a value**, up to its end. -/
def Reads (value : Json) (text : Text) (stack : List Frame) : Prop :=
  ∃ r, run ⟨.value, stack⟩ text = some r ∧ Settled value stack r

/-- White space around a value changes nothing. -/
theorem Reads.surrounded {before after : Text} (h : Reads value text stack)
    (hbefore : Json.IsMargin before) (hafter : Json.IsMargin after) :
    Reads value (before ++ (text ++ after)) stack := by
  obtain ⟨r, hrun, hsettled⟩ := h
  obtain ⟨next, hnext, hlast⟩ := hsettled.run_margin hafter
  refine ⟨next, ?_, hlast⟩
  rw [run_margin rfl hbefore, run_append, hrun, Option.bind_some, hnext]

/-! ## Numbers -/

/-- Nothing that begins a number begins anything else. -/
theorem ne_of_start? {phase : NumberPhase} {c d : Char} (h : NumberPhase.start? c = some phase)
    (hd : NumberPhase.start? d = none) : c ≠ d := by
  rintro rfl
  rw [h] at hd
  cases hd

theorem isGap_of_start? {phase : NumberPhase} {c : Char}
    (h : NumberPhase.start? c = some phase) : Json.isGap c = false := by
  simp [Json.isGap, ne_of_start? h (d := ' ') rfl, ne_of_start? h (d := '\n') rfl,
    ne_of_start? h (d := '\t') rfl, ne_of_start? h (d := '\r') rfl]

/-- The first character of a number begins it where a value is due. -/
theorem step_of_start? {phase : NumberPhase} {c : Char} (h : NumberPhase.start? c = some phase) :
    step ⟨.value, stack⟩ c = some ⟨.number phase [c], stack⟩ := by
  have hbegin : beginValue stack c = some ⟨.number phase [c], stack⟩ := by
    simp [beginValue, ne_of_start? h (d := '[') rfl, ne_of_start? h (d := '\x7b') rfl,
      ne_of_start? h (d := '\x22') rfl, ne_of_start? h (d := 't') rfl,
      ne_of_start? h (d := 'f') rfl, ne_of_start? h (d := 'n') rfl, h]
  simp [step, isGap_of_start? h, hbegin]

/-- A number goes on as its grammar does. -/
theorem run_number {phase : NumberPhase} {reversed numeral : Text}
    (h : phase.numeral? reversed text = some numeral) :
    ∃ r, run ⟨.number phase reversed, stack⟩ text = some r ∧ Settled (.number numeral) stack r := by
  induction text generalizing phase reversed with
  | nil =>
    unfold NumberPhase.numeral? at h
    split at h
    · cases h
      exact ⟨_, rfl, .number ‹_› rfl⟩
    · cases h
  | cons c text ih =>
    unfold NumberPhase.numeral? at h
    split at h
    · cases h
    · next hnext =>
      obtain ⟨r, hrun, hsettled⟩ := ih h
      refine ⟨r, ?_, hsettled⟩
      simp only [run, step, hnext, Option.bind_some, hrun]

/-- **The spelling of a number is read as that number.** -/
theorem reads_number {numeral : Text} (h : numeral? text = some numeral) :
    Reads (.number numeral) text stack := by
  cases text with
  | nil => cases h
  | cons c text =>
    obtain ⟨phase, hstart, hread⟩ := Option.bind_eq_some_iff.1 h
    obtain ⟨r, hrun, hsettled⟩ := run_number hread
    exact ⟨r, by rw [run, step_of_start? hstart, Option.bind_some, hrun], hsettled⟩

/-! ## Arrays -/

/-- A value begins, behind white space, with something else than a closing
bracket. -/
theorem exists_first {depth : Nat} (h : Json.IsText depth text) :
    ∃ margin c rest, text = margin ++ c :: rest ∧ Json.IsMargin margin ∧
      Json.isGap c = false ∧ c ≠ ']' := by
  induction h with
  | null => exact ⟨[], _, _, rfl, .nil, rfl, by decide⟩
  | bool b => cases b <;> exact ⟨[], _, _, rfl, .nil, rfl, by decide⟩
  | @number depth numeral text h =>
    cases text with
    | nil => cases h
    | cons c tail =>
      obtain ⟨phase, hstart, -⟩ := Option.bind_eq_some_iff.1 h
      exact ⟨[], c, tail, rfl, .nil, isGap_of_start? hstart, ne_of_start? hstart (d := ']') rfl⟩
  | string h => exact ⟨[], _, _, rfl, .nil, rfl, by decide⟩
  | array hmargin h _ => exact ⟨[], _, _, rfl, .nil, rfl, by decide⟩
  | object hmargin hkeys h _ => exact ⟨[], _, _, rfl, .nil, rfl, by decide⟩
  | @margin depth before text after hbefore h hafter ih =>
    obtain ⟨margin, c, rest, rfl, hmargin, hgap, hclose⟩ := ih
    exact ⟨before ++ margin, c, rest ++ after, by simp, hbefore.append hmargin, hgap, hclose⟩

/-- So a first item is read like any other. -/
theorem run_firstItem {depth : Nat} (h : Json.IsText depth text) (rest : Text) :
    run ⟨.firstItem, stack⟩ (text ++ rest) = run ⟨.value, stack⟩ (text ++ rest) := by
  obtain ⟨margin, c, tail, rfl, hmargin, hgap, hclose⟩ := exists_first h
  have hstep : step ⟨.firstItem, stack⟩ c = step ⟨.value, stack⟩ c := by
    simp [step, hgap, hclose]
  rw [List.append_assoc, run_margin rfl hmargin, run_margin rfl hmargin, List.cons_append, run, run,
    hstep]

variable {reversed : List Json}

/-- A last item, with the bracket behind it. -/
theorem run_lastItem (h : Reads value text (.array reversed :: stack)) :
    run ⟨.value, .array reversed :: stack⟩ (text ++ [']']) =
      some ⟨.complete (.array (value :: reversed).reverse), stack⟩ := by
  obtain ⟨r, hrun, hsettled⟩ := h
  have hclose := hsettled.step (c := ']') (by decide)
  rw [run_append, hrun, Option.bind_some, run, hclose]
  simp [afterValue, Json.isGap, run]

/-- Any other item, with the comma behind it. -/
theorem run_nextItem (h : Reads value text (.array reversed :: stack)) (rest : Text) :
    run ⟨.value, .array reversed :: stack⟩ (text ++ ([','] ++ rest)) =
      run ⟨.value, .array (value :: reversed) :: stack⟩ rest := by
  obtain ⟨r, hrun, hsettled⟩ := h
  have hcomma := hsettled.step (c := ',') (by decide)
  rw [run_append, hrun, Option.bind_some, List.singleton_append, run, hcomma]
  simp [afterValue, Json.isGap]

/-- The items that are due, with the bracket behind them. -/
theorem run_items {items : List (Json × Text)} (reversed : List Json) (hne : items ≠ [])
    (h : ∀ item ∈ items, ∀ frame, Reads item.1 item.2 (frame :: stack)) :
    run ⟨.value, .array reversed :: stack⟩
        (Text.joined [','] (items.map Prod.snd) ++ [']']) =
      some ⟨.complete (.array (reversed.reverse ++ items.map Prod.fst)), stack⟩ := by
  induction items generalizing reversed with
  | nil => exact absurd rfl hne
  | cons item rest ih =>
    obtain ⟨hitem, hrest⟩ := List.forall_mem_cons.1 h
    -- the bracket comes after the last item, a comma after any other
    cases rest with
    | nil =>
      have hlast := run_lastItem (hitem (.array reversed))
      rwa [List.reverse_cons] at hlast
    | cons next rest =>
      have htail := ih (item.1 :: reversed) (by simp) hrest
      rw [List.map_cons, Text.joined_cons (by simp), List.append_assoc, List.append_assoc,
        run_nextItem (hitem (.array reversed)), htail]
      simp

/-- What is joined is read from a first item as from any other. -/
theorem run_firstItems {depth : Nat} {items : List Text} (hne : items ≠ [])
    (h : ∀ item ∈ items, Json.IsText depth item) (rest : Text) :
    run ⟨.firstItem, stack⟩ (Text.joined [','] items ++ rest) =
      run ⟨.value, stack⟩ (Text.joined [','] items ++ rest) := by
  obtain ⟨item, others, rfl⟩ := List.exists_cons_of_ne_nil hne
  obtain ⟨t, ht⟩ := Text.exists_joined_cons [','] item others
  rw [ht, List.append_assoc, run_firstItem (h item List.mem_cons_self)]

/-- The items of an array that has been opened, with the bracket behind
them. -/
theorem run_array {depth : Nat} {items : List (Json × Text)}
    (htexts : ∀ item ∈ items, Json.IsText depth item.2)
    (h : ∀ item ∈ items, ∀ frame, Reads item.1 item.2 (frame :: stack)) :
    run ⟨.firstItem, .array [] :: stack⟩ (Text.joined [','] (items.map Prod.snd) ++ [']']) =
      some ⟨.complete (.array (items.map Prod.fst)), stack⟩ := by
  cases items with
  | nil => rfl
  | cons item rest =>
    rw [run_firstItems (by simp) (List.forall_mem_map.2 htexts),
      run_items [] (List.cons_ne_nil item rest) h]
    rfl

/-! ## Objects -/

/-- Where the reserved key would not come first, a key is taken as it is. -/
theorem endKey_of_ne {key : Text} (hkey : members = [] → key ≠ Json.numeralKey) (old : Text) :
    endKey key (.object members old :: stack) = some ⟨.colon, .object members key :: stack⟩ := by
  have hreserved : (members.isEmpty && key == Json.numeralKey) = false := by
    cases members with
    | nil => simp [hkey rfl]
    | cons first others => rfl
  simp [endKey, hreserved]

/-- Where it does, the object stands for a number. -/
theorem endKey_numeralKey (old : Text) :
    endKey Json.numeralKey (.object [] old :: stack) = some ⟨.colon, .numeral :: stack⟩ := by
  simp [endKey]

/-- A key and its colon are read up to the value. -/
theorem run_key {key keyText : Text} {inner : List Frame} (h : Json.SpellsKey key keyText)
    (hend : endKey key stack = some ⟨.colon, inner⟩) (rest : Text) :
    run ⟨.key, stack⟩ (keyText ++ ':' :: rest) = run ⟨.value, inner⟩ rest := by
  obtain ⟨hbefore, hinside, hafter⟩ := h
  have hcolon : step ⟨.colon, inner⟩ ':' = some ⟨.value, inner⟩ := by simp [step, Json.isGap]
  rw [List.append_assoc, run_margin rfl hbefore, List.append_assoc, run_append,
    run_quoted_key hinside, hend, Option.bind_some, run_margin rfl hafter, run, hcolon,
    Option.bind_some]

/-- A first key is read like any other. -/
theorem run_firstKey {keyText : Text} (h : Json.IsKey keyText) (rest : Text) :
    run ⟨.firstKey, stack⟩ (keyText ++ rest) = run ⟨.key, stack⟩ (keyText ++ rest) := by
  obtain ⟨hbefore, -, -⟩ := h
  rw [List.append_assoc, run_margin rfl hbefore, run_margin rfl hbefore]
  rfl

variable {key old keyText valueText : Text}

/-- A member is read up to the end of its value. -/
theorem run_member {inner : List Frame} (hkey : Json.SpellsKey key keyText)
    (hend : endKey key stack = some ⟨.colon, inner⟩) (rest : Text) :
    run ⟨.key, stack⟩ (Json.memberText (keyText, valueText) ++ rest) =
      run ⟨.value, inner⟩ (valueText ++ rest) := by
  rw [Json.memberText, List.append_assoc, List.cons_append, run_key hkey hend]

/-- A last member, with the brace behind it. -/
theorem run_lastMember (hkey : Json.SpellsKey key keyText)
    (hfirst : members = [] → key ≠ Json.numeralKey)
    (h : Reads value valueText (.object members key :: stack)) :
    run ⟨.key, .object members old :: stack⟩ (Json.memberText (keyText, valueText) ++ ['\x7d']) =
      some ⟨.complete (.object (members.put key value)), stack⟩ := by
  obtain ⟨r, hrun, hsettled⟩ := h
  have hclose := hsettled.step (c := '\x7d') (by decide)
  rw [run_member hkey (endKey_of_ne hfirst old), run_append, hrun, Option.bind_some, run, hclose]
  simp [afterValue, Json.isGap, run]

/-- Any other member, with the comma behind it. -/
theorem run_nextMember (hkey : Json.SpellsKey key keyText)
    (hfirst : members = [] → key ≠ Json.numeralKey)
    (h : Reads value valueText (.object members key :: stack)) (rest : Text) :
    run ⟨.key, .object members old :: stack⟩
        (Json.memberText (keyText, valueText) ++ ([','] ++ rest)) =
      run ⟨.key, .object (members.put key value) [] :: stack⟩ rest := by
  obtain ⟨r, hrun, hsettled⟩ := h
  have hcomma := hsettled.step (c := ',') (by decide)
  rw [run_member hkey (endKey_of_ne hfirst old), run_append, hrun, Option.bind_some,
    List.singleton_append, run, hcomma]
  simp [afterValue, Json.isGap]

/-- The members that are due, with the brace behind them. -/
theorem run_members {spelled : List Json.SpelledMember} (members : Members) (old : Text)
    (hne : spelled ≠ [])
    (hfirst : members = [] → (spelled.map Json.SpelledMember.key).head? ≠ some Json.numeralKey)
    (hkeys : ∀ member ∈ spelled, Json.SpellsKey member.key member.keyText)
    (h : ∀ member ∈ spelled, ∀ frame, Reads member.value member.valueText (frame :: stack)) :
    run ⟨.key, .object members old :: stack⟩
        (Text.joined [','] (spelled.map Json.SpelledMember.text) ++ ['\x7d']) =
      some ⟨.complete (.object (members.putAll (spelled.map Json.SpelledMember.member))),
        stack⟩ := by
  induction spelled generalizing members old with
  | nil => exact absurd rfl hne
  | cons member rest ih =>
    obtain ⟨hkey, hkeys⟩ := List.forall_mem_cons.1 hkeys
    obtain ⟨hvalue, hrest⟩ := List.forall_mem_cons.1 h
    have hreserved : members = [] → member.key ≠ Json.numeralKey :=
      fun hnil heq => hfirst hnil (congrArg some heq)
    have hread := hvalue (.object members member.key)
    cases rest with
    | nil => exact run_lastMember hkey hreserved hread
    | cons next rest =>
      -- behind the first member no key is the reserved one any more
      have htail := ih (members.put member.key member.value) [] (by simp)
        (fun hnil => absurd hnil (Members.put_ne_nil _ _ _)) hkeys hrest
      rw [List.map_cons, Text.joined_cons (by simp), List.append_assoc, List.append_assoc]
      show run _ (Json.memberText (member.keyText, member.valueText) ++ _) = _
      rw [run_nextMember hkey hreserved hread, htail]
      rfl

/-- What is joined is read from a first key as from any other. -/
theorem run_firstKeys {fields : List (Text × Text)} (hne : fields ≠ [])
    (h : ∀ field ∈ fields, Json.IsKey field.1) (rest : Text) :
    run ⟨.firstKey, stack⟩ (Text.joined [','] (fields.map Json.memberText) ++ rest) =
      run ⟨.key, stack⟩ (Text.joined [','] (fields.map Json.memberText) ++ rest) := by
  obtain ⟨field, others, rfl⟩ := List.exists_cons_of_ne_nil hne
  obtain ⟨t, ht⟩ := Text.exists_joined_cons [','] (Json.memberText field)
    (others.map Json.memberText)
  rw [List.map_cons, ht, Json.memberText, List.append_assoc, List.append_assoc,
    run_firstKey (h field List.mem_cons_self)]

/-- The members of an object that has been opened, with the brace behind
them. -/
theorem run_object {spelled : List Json.SpelledMember}
    (hfirst : (spelled.map Json.SpelledMember.key).head? ≠ some Json.numeralKey)
    (hkeys : ∀ member ∈ spelled, Json.SpellsKey member.key member.keyText)
    (h : ∀ member ∈ spelled, ∀ frame, Reads member.value member.valueText (frame :: stack)) :
    run ⟨.firstKey, .object [] [] :: stack⟩
        (Text.joined [','] (spelled.map Json.SpelledMember.text) ++ ['\x7d']) =
      some ⟨.complete (.object (Members.putAll [] (spelled.map Json.SpelledMember.member))),
        stack⟩ := by
  cases spelled with
  | nil => rfl
  | cons member rest =>
    have hmembers := run_members [] [] (List.cons_ne_nil member rest) (fun _ => hfirst) hkeys h
    rw [← Json.SpelledMember.map_memberText] at hmembers ⊢
    rw [run_firstKeys (by simp) (List.forall_mem_map.2 fun member hmember =>
      (hkeys member hmember).isKey), hmembers]

/-- An object that stands for a number, with the brace behind it. -/
theorem run_numeral (hkey : Json.SpellsKey Json.numeralKey keyText)
    (h : Reads value valueText (.numeral :: stack)) :
    run ⟨.key, .object [] old :: stack⟩ (Json.memberText (keyText, valueText) ++ ['\x7d']) =
      value.ofNumeral?.map fun number => ⟨.complete number, stack⟩ := by
  obtain ⟨r, hrun, hsettled⟩ := h
  have hclose := hsettled.step (c := '\x7d') (by decide)
  rw [run_member hkey (endKey_numeralKey old), run_append, hrun, Option.bind_some, run, hclose]
  cases hnumber : value.ofNumeral? <;> simp [afterValue, Json.isGap, run, hnumber]

/-! ## Values -/

/-- Where there is room a bracket can be opened. -/
theorem step_open (hroom : stack.length < Json.maxDepth) :
    step ⟨.value, stack⟩ '[' = some ⟨.firstItem, .array [] :: stack⟩ ∧
      step ⟨.value, stack⟩ '\x7b' = some ⟨.firstKey, .object [] [] :: stack⟩ := by
  simp [step, Json.isGap, beginValue, openBracket, hroom]

/-- One bracket further in there is one place less. -/
theorem length_cons_add_le {inner : Nat} (h : stack.length + (inner + 1) ≤ Json.maxDepth)
    (frame : Frame) : (frame :: stack).length + inner ≤ Json.maxDepth := by
  rw [List.length_cons]
  omega

/-- **What a text means is what it is read as**, where there is room for its
brackets. -/
theorem reads {depth : Nat} (h : Json.Means depth value text) (stack : List Frame)
    (hroom : stack.length + depth ≤ Json.maxDepth) : Reads value text stack := by
  induction h generalizing stack with
  | null => exact ⟨_, rfl, .complete⟩
  | bool b => cases b <;> exact ⟨_, rfl, .complete⟩
  | number hnumeral => exact reads_number hnumeral
  | string hinside => exact ⟨_, run_quoted hinside stack, .complete⟩
  | array hmargin hitems ih =>
    refine ⟨_, ?_, .complete⟩
    rw [Json.squared, run, (step_open (by omega)).1, Option.bind_some, run_margin rfl hmargin]
    exact run_array (fun item hitem => (hitems item hitem).isText) fun item hitem frame =>
      ih item hitem _ (length_cons_add_le hroom frame)
  | object hmargin hfirst hkeys _ ih =>
    refine ⟨_, ?_, .complete⟩
    rw [Json.braced, run, (step_open (by omega)).2, Option.bind_some, run_margin rfl hmargin]
    exact run_object hfirst hkeys fun member hmember frame =>
      ih member hmember _ (length_cons_add_le hroom frame)
  | @numeral depth margin keyText valueText inner numeral hmargin hkey hvalue hnumeral ih =>
    have hread := ih (.numeral :: stack) (length_cons_add_le hroom _)
    refine ⟨_, ?_, .complete⟩
    rw [Json.braced, run, (step_open (by omega)).2, Option.bind_some, run_margin rfl hmargin]
    show run _ (Text.joined [','] ([(keyText, valueText)].map Json.memberText) ++ _) = _
    rw [run_firstKeys (List.cons_ne_nil _ _) (List.forall_mem_singleton.2 hkey.isKey)]
    show run _ (Json.memberText (keyText, valueText) ++ _) = _
    rw [run_numeral hkey hread, Json.ofNumeral?, hnumeral]
    rfl
  | margin hbefore _ hafter ih => exact (ih stack hroom).surrounded hbefore hafter

end Reading

/-- **White space behind a text changes nothing**, whether the text can be
read or not. -/
theorem Json.read?_append_gap {c : Char} (hc : isGap c = true) (t : Text) :
    read? (t ++ [c]) = read? t := by
  unfold read?
  rw [Reading.run_append, Option.bind_assoc]
  cases hrun : Reading.start.run t with
  | none => rfl
  | some r =>
    have hstep := Reading.finish_step_of_isGap (Reading.sound_start.run hrun) hc
    simp only [Option.bind_some, Reading.run, Option.bind_fun_some]
    exact hstep

/-- **White space around a text changes nothing** either. -/
theorem Json.read?_margin {before after : Text} (hbefore : IsMargin before)
    (hafter : IsMargin after) (t : Text) : read? (before ++ (t ++ after)) = read? t := by
  rw [read?, Reading.start, Reading.run_margin rfl hbefore]
  show read? (t ++ after) = read? t
  induction after generalizing t with
  | nil => rw [List.append_nil]
  | cons c after ih =>
    obtain ⟨hc, hafter⟩ := List.forall_mem_cons.1 hafter
    rw [← List.singleton_append, ← List.append_assoc, ih hafter, read?_append_gap hc]

/-- A text that is read up to its end outside all brackets is read. -/
theorem Reading.Reads.read? {value : Json} {text : Text} (h : Reads value text []) :
    Json.read? text = some value := by
  obtain ⟨r, hrun, hsettled⟩ := h
  exact Option.bind_eq_some_iff.2 ⟨r, hrun, hsettled.finish⟩

/-- **What a text means is what it is read as.** -/
theorem Json.Means.read? {depth : Nat} {value : Json} {text : Text} (h : Means depth value text)
    (hdepth : depth ≤ maxDepth) : Json.read? text = some value :=
  (Reading.reads h [] (by simpa using hdepth)).read?

/-- **Every text of a readable value is read as that value.** -/
theorem Json.Spells.read? {value : Json} {text : Text} (hspells : value.Spells text)
    (h : value.Readable maxDepth) : Json.read? text = some value :=
  (hspells.means h).read? (Nat.le_refl _)

/-- **What is written is read as itself.** -/
theorem Json.read?_write {value : Json} (h : value.Readable maxDepth) :
    read? value.write = some value :=
  h.spells_write.read? h

end ChangeFeed
