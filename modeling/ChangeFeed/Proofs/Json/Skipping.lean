import ChangeFeed.Json.Outline
import ChangeFeed.Proofs.Json.Acceptance
/-!
# Skipping — a value is skipped exactly if it is JSON

A value that is skipped is checked for grammar only, so what is skipped up to
its end is the JSON texts, however deep they nest (`skips_iff`). That every
text is skipped goes by induction on the grammar, under any brackets. The other
direction goes along the characters: `Leads` says what the open brackets demand
of the text that is left, and a step may only add to it.
-/


namespace ChangeFeed

namespace Json

/-- **A JSON text**, however deep its brackets nest. -/
def IsJson (t : Text) : Prop := ∃ depth, IsText depth t

variable {t margin : Text}

/-- A bound on the depth of each is a bound on the depth of all. -/
theorem exists_depth {texts : List Text} (h : ∀ t ∈ texts, IsJson t) :
    ∃ depth, ∀ t ∈ texts, IsText depth t := by
  induction texts with
  | nil => exact ⟨0, List.forall_mem_nil _⟩
  | cons first rest ih =>
    obtain ⟨⟨here, hfirst⟩, hrest⟩ := List.forall_mem_cons.1 h
    obtain ⟨there, hall⟩ := ih hrest
    refine ⟨max here there, List.forall_mem_cons.2 ⟨hfirst.mono (by omega), ?_⟩⟩
    exact fun t ht => (hall t ht).mono (by omega)

theorem isJson_squared {items : List Text} (hmargin : IsMargin margin)
    (h : ∀ item ∈ items, IsJson item) : IsJson (squared margin items) := by
  obtain ⟨depth, hitems⟩ := exists_depth h
  exact ⟨depth + 1, .array hmargin hitems⟩

theorem isJson_braced {fields : List (Text × Text)} (hmargin : IsMargin margin)
    (hkeys : ∀ field ∈ fields, IsKey field.1) (h : ∀ field ∈ fields, IsJson field.2) :
    IsJson (braced margin (fields.map memberText)) := by
  obtain ⟨depth, hvalues⟩ := exists_depth (List.forall_mem_map.2 h)
  exact ⟨depth + 1, .object hmargin hkeys (List.forall_mem_map.1 hvalues)⟩

theorem IsJson.padded {before after : Text} (h : IsJson t) (hbefore : IsMargin before)
    (hafter : IsMargin after) : IsJson (before ++ (t ++ after)) := by
  obtain ⟨depth, ht⟩ := h
  exact ⟨depth, .margin hbefore ht hafter⟩

theorem IsJson.append (h : IsJson t) (hmargin : IsMargin margin) : IsJson (t ++ margin) :=
  h.padded .nil hmargin

theorem IsJson.cons {c : Char} (h : IsJson t) (hc : isGap c = true) : IsJson (c :: t) := by
  have hpadded := h.padded (.cons hc .nil) .nil
  rwa [List.append_nil] at hpadded

theorem IsKey.cons {c : Char} (h : IsKey t) (hc : isGap c = true) : IsKey (c :: t) := by
  obtain ⟨hbefore, hinside, hafter⟩ := h
  exact .quoted (hbefore.cons hc) hinside hafter

theorem SpellsKey.cons {c : Char} {key : Text} (h : SpellsKey key t) (hc : isGap c = true) :
    SpellsKey key (c :: t) := by
  obtain ⟨hbefore, hinside, hafter⟩ := h
  exact .quoted (hbefore.cons hc) hinside hafter

end Json

/-! ## Strings -/

namespace SkippedEscape

/-- Skips a text that does not end the string. -/
def run : SkippedEscape → Text → Option SkippedEscape
  | escape, [] => some escape
  | escape, c :: rest =>
    match escape.step c with
    | some (.more next) => next.run rest
    | _ => none

variable {escape next : SkippedEscape} {c : Char} {s t : Text}

theorem run_append (escape : SkippedEscape) (s t : Text) :
    escape.run (s ++ t) = (escape.run s).bind fun next => next.run t := by
  induction s generalizing escape with
  | nil => rfl
  | cons c s ih =>
    simp only [List.cons_append, run]
    split
    · exact ih _
    · rfl

theorem run_cons (h : escape.step c = some (.more next)) (t : Text) :
    escape.run (c :: t) = next.run t := by
  rw [run, h]

/-- Only a quote outside every escape ends a string. -/
theorem eq_quote_of_ends (h : escape.step c = some .ends) : c = '\x22' ∧ escape = .closed := by
  unfold step at h
  cases escape with
  | closed => grind
  | backslash => grind [Option.map_eq_some_iff]
  | unit due => grind [Option.map_eq_some_iff]

/-- The digits that are due are skipped. -/
theorem run_hexValue? {digits : Text} {value total : Nat} (hne : digits ≠ [])
    (h : hexValue? value digits = some total) :
    run (.unit digits.length) digits = some .closed := by
  induction digits generalizing value with
  | nil => exact absurd rfl hne
  | cons c digits ih =>
    obtain ⟨d, hd, hdigits⟩ := Option.bind_eq_some_iff.1 h
    cases digits with
    | nil => simp [run, step, hd]
    | cons next digits =>
      have htail := ih (List.cons_ne_nil next digits) hdigits
      rw [← htail]
      exact run_cons (by simp [step, hd]) _

/-- **What may stand between quotes is skipped.** -/
theorem run_isQuoted (h : IsQuoted t) : run .closed t = some .closed := by
  induction h with
  | nil => rfl
  | plain hquote hslash hcontrol _ ih =>
    have hplain : ¬ _ < 0x20 := Nat.not_lt.2 hcontrol
    rw [← ih]
    exact run_cons (by simp [step, hquote, hslash, hplain]) _
  | @escape letter c t hletter _ ih =>
    have hne : letter ≠ 'u' := by
      rintro rfl
      cases hletter
    rw [← ih, run_cons rfl]
    exact run_cons (by simp [step, hne, hletter]) _
  | @unit digits t value hdigits _ ih =>
    have hrun : run (.unit 4) digits = some .closed := by
      unfold unitValue? at hdigits
      split at hdigits
      · next hlength =>
        rw [← hlength]
        refine run_hexValue? ?_ hdigits
        rintro rfl
        cases hlength
      · cases hdigits
    rw [run_cons rfl, run_cons rfl, run_append, hrun,
      Option.bind_some, ih]

/-- What is left of a string with an escape that may be open. -/
def Leads : SkippedEscape → Text → Prop
  | closed, t => IsQuoted t
  | backslash, t => IsQuoted ('\\' :: t)
  | unit due, t => ∃ digits rest, t = digits ++ rest ∧ digits.length = max due 1 ∧
      (∀ value, ∃ total, hexValue? value digits = some total) ∧ IsQuoted rest

/-- **A step adds its character** to what is left. -/
theorem leads_step (h : escape.step c = some (.more next)) (hnext : next.Leads t) :
    escape.Leads (c :: t) := by
  cases escape with
  | closed =>
    simp only [step] at h
    split at h
    · cases h
    split at h
    · cases h
      next hslash => exact hslash ▸ hnext
    split at h
    · cases h
    · next hquote hslash hcontrol =>
      cases h
      exact .plain hquote hslash (Nat.not_lt.1 hcontrol) hnext
  | backslash =>
    simp only [step] at h
    split at h
    · next hunit =>
      cases h
      obtain ⟨digits, rest, rfl, hlength, hvalue, hrest⟩ := hnext
      obtain ⟨total, htotal⟩ := hvalue 0
      have hfour : digits.length = 4 := hlength
      rw [hunit]
      exact .unit (by rw [unitValue?, if_pos hfour, htotal]) hrest
    · obtain ⟨d, hd, heq⟩ := Option.map_eq_some_iff.1 h
      cases heq
      exact .escape hd hnext
  | unit due =>
    obtain ⟨d, hd, heq⟩ := Option.map_eq_some_iff.1 h
    have hmore : ∀ {digits : Text}, (∀ value, ∃ total, hexValue? value digits = some total) →
        ∀ value, ∃ total, hexValue? value (c :: digits) = some total := by
      intro digits hdigits value
      obtain ⟨total, htotal⟩ := hdigits (value * 16 + d)
      exact ⟨total, by rw [hexValue?, hd, Option.bind_some, htotal]⟩
    split at heq
    · next hdue =>
      cases heq
      exact ⟨[c], t, rfl, by simp; omega, hmore fun value => ⟨value, rfl⟩, hnext⟩
    · next hdue =>
      cases heq
      obtain ⟨digits, rest, rfl, hlength, hvalue, hrest⟩ := hnext
      refine ⟨c :: digits, rest, rfl, ?_, hmore hvalue, hrest⟩
      rw [List.length_cons, hlength]
      omega

/-- **Nothing else is skipped** between quotes. -/
theorem leads_of_run (h : escape.run t = some .closed) : escape.Leads t := by
  induction t generalizing escape with
  | nil =>
    cases h
    exact .nil
  | cons c t ih =>
    unfold run at h
    split at h
    · next next hstep => exact leads_step hstep (ih h)
    · cases h

end SkippedEscape

/-! ## Every JSON text is skipped -/

namespace Skim

/-- Skips a text. -/
def run : Skim → Text → Option Skim
  | s, [] => some s
  | s, c :: rest => (s.step c).bind fun next => next.run rest

variable {s next : Skim} {stack : List Bracket} {text margin : Text} {c : Char}

theorem run_append (s : Skim) (first second : Text) :
    s.run (first ++ second) = (s.run first).bind fun next => next.run second := by
  induction first generalizing s with
  | nil => rfl
  | cons c first ih =>
    cases h : s.step c with
    | none => simp [run, h]
    | some next => simp [run, h, ih]

/-- **The skipping stands at the end of a value.** -/
inductive Settled (stack : List Bracket) : Skim → Prop where
  | complete : Settled stack ⟨.complete, stack⟩
  /-- A number may go on, and this one may also end. -/
  | number {phase : NumberPhase} (hcomplete : phase.isComplete = true) :
      Settled stack ⟨.number phase, stack⟩

/-- What may stand behind a value is skipped as standing after it. -/
theorem Settled.step (h : Settled stack s) (hc : c ∈ NumberPhase.ends) :
    s.step c = afterValue stack c := by
  cases h with
  | complete => rfl
  | number hcomplete =>
    simp only [Skim.step, NumberPhase.next?_of_mem_ends hc, hcomplete, if_true]

/-- White space may stand here. -/
def waits : SkimPhase → Bool
  | .value | .firstItem | .key | .firstKey | .colon | .complete => true
  | _ => false

/-- Where white space may stand it changes nothing. -/
theorem run_margin {phase : SkimPhase} (hphase : waits phase = true)
    (hmargin : Json.IsMargin margin) (rest : Text) :
    run ⟨phase, stack⟩ (margin ++ rest) = run ⟨phase, stack⟩ rest := by
  induction margin with
  | nil => rfl
  | cons c margin ih =>
    obtain ⟨hc, hmargin⟩ := List.forall_mem_cons.1 hmargin
    have hstep : step ⟨phase, stack⟩ c = some ⟨phase, stack⟩ := by
      cases phase with
      | value | firstItem | key | firstKey | colon | complete => exact if_pos hc
      | _ => cases hphase
    rw [List.cons_append, run, hstep, Option.bind_some, ih hmargin]

/-- White space behind a value ends it. -/
theorem Settled.run_margin (h : Settled stack s) (hmargin : Json.IsMargin margin) :
    ∃ next, s.run margin = some next ∧ Settled stack next := by
  cases margin with
  | nil => exact ⟨s, rfl, h⟩
  | cons c margin =>
    obtain ⟨hc, hmargin⟩ := List.forall_mem_cons.1 hmargin
    have hafter : afterValue stack c = some ⟨.complete, stack⟩ := if_pos hc
    have hrest : run ⟨.complete, stack⟩ (margin ++ []) = some ⟨.complete, stack⟩ :=
      Skim.run_margin rfl hmargin []
    rw [List.append_nil] at hrest
    exact ⟨_, by rw [run, h.step (Reading.mem_ends_of_isGap hc), hafter, Option.bind_some, hrest],
      .complete⟩

/-- **A text is skipped** up to its end. -/
def Skips (text : Text) (stack : List Bracket) : Prop :=
  ∃ s, run ⟨.value, stack⟩ text = some s ∧ Settled stack s

/-- A phase that hands its characters to a string skips what the string
skips. -/
theorem run_of_more (wrap : SkippedEscape → SkimPhase) (stack : List Bracket)
    (hmore : ∀ escape c next, escape.step c = some (.more next) →
      step ⟨wrap escape, stack⟩ c = some ⟨wrap next, stack⟩)
    {escape next : SkippedEscape} (h : escape.run text = some next) :
    run ⟨wrap escape, stack⟩ text = some ⟨wrap next, stack⟩ := by
  induction text generalizing escape with
  | nil =>
    cases h
    rfl
  | cons c text ih =>
    unfold SkippedEscape.run at h
    split at h
    · next middle hstep =>
      rw [run, hmore escape c middle hstep, Option.bind_some]
      exact ih h
    · cases h

theorem run_string {inside : Text} (h : IsQuoted inside) (rest : Text) :
    run ⟨.string .closed, stack⟩ (inside ++ '\x22' :: rest) = run ⟨.complete, stack⟩ rest := by
  have hinside := run_of_more .string stack
    (fun escape c next hstep => by simp [step, hstep]) (SkippedEscape.run_isQuoted h)
  rw [run_append, hinside, Option.bind_some]
  simp [run, step, SkippedEscape.step]

theorem run_keyString {inside : Text} (h : IsQuoted inside) (rest : Text) :
    run ⟨.keyString .closed, stack⟩ (inside ++ '\x22' :: rest) = run ⟨.colon, stack⟩ rest := by
  have hinside := run_of_more .keyString stack
    (fun escape c next hstep => by simp [step, hstep]) (SkippedEscape.run_isQuoted h)
  rw [run_append, hinside, Option.bind_some]
  simp [run, step, SkippedEscape.step]

/-- A number goes on as its grammar does. -/
theorem run_number {phase : NumberPhase} {reversed numeral : Text}
    (h : phase.numeral? reversed text = some numeral) (stack : List Bracket) :
    ∃ s, run ⟨.number phase, stack⟩ text = some s ∧ Settled stack s := by
  induction text generalizing phase reversed with
  | nil =>
    unfold NumberPhase.numeral? at h
    split at h
    · next hcomplete => exact ⟨_, rfl, .number hcomplete⟩
    · cases h
  | cons c text ih =>
    unfold NumberPhase.numeral? at h
    split at h
    · cases h
    · next hnext =>
      obtain ⟨s, hrun, hsettled⟩ := ih h
      refine ⟨s, ?_, hsettled⟩
      simp only [run, step, hnext, Option.bind_some, hrun]

theorem skips_number {numeral : Text} (h : numeral? text = some numeral) : Skips text stack := by
  cases text with
  | nil => cases h
  | cons c text =>
    obtain ⟨phase, hstart, hread⟩ := Option.bind_eq_some_iff.1 h
    obtain ⟨s, hrun, hsettled⟩ := run_number hread stack
    have hbegin : beginValue stack c = some ⟨.number phase, stack⟩ := by
      simp [beginValue, Reading.ne_of_start? hstart (d := '[') rfl,
        Reading.ne_of_start? hstart (d := '\x7b') rfl,
        Reading.ne_of_start? hstart (d := '\x22') rfl, Reading.ne_of_start? hstart (d := 't') rfl,
        Reading.ne_of_start? hstart (d := 'f') rfl, Reading.ne_of_start? hstart (d := 'n') rfl,
        hstart]
    have hstep : step ⟨.value, stack⟩ c = some ⟨.number phase, stack⟩ := by
      simp [step, Reading.isGap_of_start? hstart, hbegin]
    exact ⟨s, by rw [run, hstep, Option.bind_some, hrun], hsettled⟩

/-- A first item is skipped like any other. -/
theorem run_firstItem {depth : Nat} (h : Json.IsText depth text) (rest : Text) :
    run ⟨.firstItem, stack⟩ (text ++ rest) = run ⟨.value, stack⟩ (text ++ rest) := by
  obtain ⟨margin, c, tail, rfl, hmargin, hgap, hclose⟩ := Reading.exists_first h
  have hstep : step ⟨.firstItem, stack⟩ c = step ⟨.value, stack⟩ c := by
    simp [step, hgap, hclose]
  rw [List.append_assoc, run_margin rfl hmargin, run_margin rfl hmargin, List.cons_append, run, run,
    hstep]

/-- The items that are due, with the bracket behind them. -/
theorem run_items {items : List Text} (hne : items ≠ [])
    (h : ∀ item ∈ items, Skips item (.square :: stack)) :
    run ⟨.value, .square :: stack⟩ (Text.joined [','] items ++ [']']) =
      some ⟨.complete, stack⟩ := by
  induction items with
  | nil => exact absurd rfl hne
  | cons item rest ih =>
    obtain ⟨⟨s, hrun, hsettled⟩, hrest⟩ := List.forall_mem_cons.1 h
    cases rest with
    | nil =>
      have hclose := hsettled.step (c := ']') (by decide)
      show run _ (item ++ [']']) = _
      rw [run_append, hrun, Option.bind_some, run, hclose]
      simp [afterValue, Json.isGap, run]
    | cons next rest =>
      have hcomma := hsettled.step (c := ',') (by decide)
      have htail := ih (List.cons_ne_nil next rest) hrest
      rw [Text.joined_cons (List.cons_ne_nil next rest), List.append_assoc, run_append, hrun,
        Option.bind_some, List.append_assoc, List.singleton_append, run, hcomma]
      simpa [afterValue, Json.isGap] using htail

theorem run_array {depth : Nat} {items : List Text}
    (htexts : ∀ item ∈ items, Json.IsText depth item)
    (h : ∀ item ∈ items, Skips item (.square :: stack)) :
    run ⟨.firstItem, .square :: stack⟩ (Text.joined [','] items ++ [']']) =
      some ⟨.complete, stack⟩ := by
  cases items with
  | nil => rfl
  | cons item rest =>
    obtain ⟨t, ht⟩ := Text.exists_joined_cons [','] item rest
    rw [← run_items (List.cons_ne_nil item rest) h, ht, List.append_assoc,
      run_firstItem (htexts item List.mem_cons_self)]

/-- A key and its colon are skipped up to the value, also where the object
might end instead. -/
theorem run_key {phase : SkimPhase} (hphase : phase = .key ∨ phase = .firstKey) {keyText : Text}
    (h : Json.IsKey keyText) (rest : Text) :
    run ⟨phase, stack⟩ (keyText ++ ':' :: rest) = run ⟨.value, stack⟩ rest := by
  obtain ⟨hbefore, hinside, hafter⟩ := h
  have hwaits : waits phase = true := by rcases hphase with rfl | rfl <;> rfl
  have hopen : step ⟨phase, stack⟩ '\x22' = some ⟨.keyString .closed, stack⟩ := by
    rcases hphase with rfl | rfl <;> simp [step, Json.isGap]
  have hcolon : step ⟨.colon, stack⟩ ':' = some ⟨.value, stack⟩ := by simp [step, Json.isGap]
  rw [List.append_assoc, run_margin hwaits hbefore, List.append_assoc, List.cons_append, run, hopen,
    Option.bind_some, List.append_assoc, List.singleton_append, run_keyString hinside,
    run_margin rfl hafter, run, hcolon, Option.bind_some]

/-- The members that are due, with the brace behind them. -/
theorem run_members {fields : List (Text × Text)} (hne : fields ≠ [])
    (hkeys : ∀ field ∈ fields, Json.IsKey field.1)
    (h : ∀ field ∈ fields, Skips field.2 (.curly :: stack)) :
    run ⟨.key, .curly :: stack⟩ (Text.joined [','] (fields.map Json.memberText) ++ ['\x7d']) =
      some ⟨.complete, stack⟩ := by
  induction fields with
  | nil => exact absurd rfl hne
  | cons field rest ih =>
    obtain ⟨hkey, hkeys⟩ := List.forall_mem_cons.1 hkeys
    obtain ⟨⟨s, hrun, hsettled⟩, hrest⟩ := List.forall_mem_cons.1 h
    have hmember : ∀ t, run ⟨.key, .curly :: stack⟩ (Json.memberText field ++ t) = s.run t := by
      intro t
      rw [Json.memberText, List.append_assoc, List.cons_append, run_key (Or.inl rfl) hkey,
        run_append, hrun, Option.bind_some]
    cases rest with
    | nil =>
      have hclose := hsettled.step (c := '\x7d') (by decide)
      show run _ (Json.memberText field ++ ['\x7d']) = _
      rw [hmember, run, hclose]
      simp [afterValue, Json.isGap, run]
    | cons next rest =>
      have hcomma := hsettled.step (c := ',') (by decide)
      have htail := ih (List.cons_ne_nil next rest) hkeys hrest
      rw [List.map_cons, Text.joined_cons (by simp), List.append_assoc, hmember, List.append_assoc,
        List.singleton_append, run, hcomma]
      simpa [afterValue, Json.isGap] using htail

theorem run_object {fields : List (Text × Text)} (hkeys : ∀ field ∈ fields, Json.IsKey field.1)
    (h : ∀ field ∈ fields, Skips field.2 (.curly :: stack)) :
    run ⟨.firstKey, .curly :: stack⟩ (Text.joined [','] (fields.map Json.memberText) ++ ['\x7d']) =
      some ⟨.complete, stack⟩ := by
  cases fields with
  | nil => rfl
  | cons field rest =>
    have hkey := hkeys field List.mem_cons_self
    obtain ⟨t, ht⟩ := Text.exists_joined_cons [','] (Json.memberText field)
      (rest.map Json.memberText)
    rw [← run_members (List.cons_ne_nil field rest) hkeys h, List.map_cons, ht, Json.memberText,
      List.append_assoc, List.append_assoc, List.cons_append, run_key (Or.inl rfl) hkey,
      run_key (Or.inr rfl) hkey]

/-- **Every JSON text is skipped**, inside any brackets. -/
theorem skips {depth : Nat} (h : Json.IsText depth text) (stack : List Bracket) :
    Skips text stack := by
  induction h generalizing stack with
  | null => exact ⟨_, rfl, .complete⟩
  | bool b => cases b <;> exact ⟨_, rfl, .complete⟩
  | number h => exact skips_number h
  | string h =>
    refine ⟨_, ?_, .complete⟩
    have hstart : step ⟨.value, stack⟩ '\x22' = some ⟨.string .closed, stack⟩ := by
      simp [step, beginValue, Json.isGap]
    rw [run, hstart, Option.bind_some, run_string h]
    rfl
  | array hmargin hitems ih =>
    refine ⟨_, ?_, .complete⟩
    have hstart : step ⟨.value, stack⟩ '[' = some ⟨.firstItem, .square :: stack⟩ := by
      simp [step, beginValue, Json.isGap]
    rw [Json.squared, run, hstart, Option.bind_some, run_margin rfl hmargin]
    exact run_array hitems fun item hitem => ih item hitem (.square :: stack)
  | object hmargin hkeys _ ih =>
    refine ⟨_, ?_, .complete⟩
    have hstart : step ⟨.value, stack⟩ '\x7b' = some ⟨.firstKey, .curly :: stack⟩ := by
      simp [step, beginValue, Json.isGap]
    rw [Json.braced, run, hstart, Option.bind_some, run_margin rfl hmargin]
    exact run_object hkeys fun field hfield => ih field hfield (.curly :: stack)
  | margin hbefore _ hafter ih =>
    obtain ⟨s, hrun, hsettled⟩ := ih stack
    obtain ⟨next, hnext, hlast⟩ := hsettled.run_margin hafter
    refine ⟨next, ?_, hlast⟩
    rw [run_margin rfl hbefore, run_append, hrun, Option.bind_some, hnext]

/-! ## Nothing else is -/

/-- **The rest of an array** behind one of its items, and the text behind its
bracket. -/
inductive ItemsRest : Text → Text → Prop where
  | close {margin rest : Text} (hmargin : Json.IsMargin margin) :
      ItemsRest (margin ++ ']' :: rest) rest
  | more {margin item t rest : Text} (hmargin : Json.IsMargin margin) (hitem : Json.IsJson item)
      (h : ItemsRest t rest) : ItemsRest (margin ++ ',' :: (item ++ t)) rest

/-- **The rest of an object** behind one of its members, and the text behind
its brace. -/
inductive MembersRest : Text → Text → Prop where
  | close {margin rest : Text} (hmargin : Json.IsMargin margin) :
      MembersRest (margin ++ '\x7d' :: rest) rest
  | more {margin keyText valueText t rest : Text} (hmargin : Json.IsMargin margin)
      (hkey : Json.IsKey keyText) (hvalue : Json.IsJson valueText) (h : MembersRest t rest) :
      MembersRest (margin ++ ',' :: (Json.memberText (keyText, valueText) ++ t)) rest

variable {t item keyText valueText rest : Text}

theorem ItemsRest.cons (h : ItemsRest t rest) (hc : Json.isGap c = true) :
    ItemsRest (c :: t) rest := by
  cases h with
  | close hmargin => exact .close (hmargin.cons hc)
  | more hmargin hitem h =>
    exact .more (hmargin.cons hc) hitem h

theorem MembersRest.cons (h : MembersRest t rest) (hc : Json.isGap c = true) :
    MembersRest (c :: t) rest := by
  cases h with
  | close hmargin => exact .close (hmargin.cons hc)
  | more hmargin hkey hvalue h =>
    exact .more (hmargin.cons hc) hkey hvalue h

/-- An item and the rest of the array are items with commas between them. -/
theorem ItemsRest.exists_items (h : ItemsRest t rest) (hitem : Json.IsJson item) :
    ∃ items, items ≠ [] ∧ (∀ item ∈ items, Json.IsJson item) ∧
      item ++ t = Text.joined [','] items ++ ']' :: rest := by
  induction h generalizing item with
  | @close margin rest hmargin =>
    exact ⟨[item ++ margin], by simp, List.forall_mem_singleton.2 (hitem.append hmargin),
      by simp [Text.joined]⟩
  | @more margin next t rest hmargin hnext _ ih =>
    obtain ⟨items, hne, hitems, htext⟩ := ih hnext
    refine ⟨(item ++ margin) :: items, by simp,
      List.forall_mem_cons.2 ⟨hitem.append hmargin, hitems⟩, ?_⟩
    rw [Text.joined_cons hne, htext]
    simp

/-- A member and the rest of the object are members with commas between
them. -/
theorem MembersRest.exists_fields (h : MembersRest t rest) (hkey : Json.IsKey keyText)
    (hvalue : Json.IsJson valueText) :
    ∃ fields, fields ≠ [] ∧ (∀ field ∈ fields, Json.IsKey field.1) ∧
      (∀ field ∈ fields, Json.IsJson field.2) ∧
      Json.memberText (keyText, valueText) ++ t =
        Text.joined [','] (fields.map Json.memberText) ++ '\x7d' :: rest := by
  induction h generalizing keyText valueText with
  | @close margin rest hmargin =>
    exact ⟨[(keyText, valueText ++ margin)], by simp, List.forall_mem_singleton.2 hkey,
      List.forall_mem_singleton.2 (hvalue.append hmargin), by simp [Text.joined, Json.memberText]⟩
  | @more margin nextKey nextValue t rest hmargin hnextKey hnextValue _ ih =>
    obtain ⟨fields, hne, hkeys, hvalues, htext⟩ := ih hnextKey hnextValue
    refine ⟨(keyText, valueText ++ margin) :: fields, by simp,
      List.forall_mem_cons.2 ⟨hkey, hkeys⟩,
      List.forall_mem_cons.2 ⟨hvalue.append hmargin, hvalues⟩, ?_⟩
    rw [List.map_cons, Text.joined_cons (by simpa using hne), htext]
    simp [Json.memberText]

/-- **What the open brackets demand** of the text behind a value. -/
def Follows : List Bracket → Text → Prop
  | [], t => Json.IsMargin t
  | .square :: outer, t => ∃ rest, ItemsRest t rest ∧ Follows outer rest
  | .curly :: outer, t => ∃ rest, MembersRest t rest ∧ Follows outer rest

/-- What is demanded of the text where a value is due. -/
def LeadsValue (stack : List Bracket) (t : Text) : Prop :=
  ∃ value rest, t = value ++ rest ∧ Json.IsJson value ∧ Follows stack rest

/-- Where a key is due. -/
def LeadsKey (stack : List Bracket) (t : Text) : Prop :=
  ∃ keyText valueText rest, t = Json.memberText (keyText, valueText) ++ rest ∧
    Json.IsKey keyText ∧ Json.IsJson valueText ∧ Follows stack rest

/-- Where a colon is due. -/
def LeadsColon (stack : List Bracket) (t : Text) : Prop :=
  ∃ margin value rest, t = margin ++ ':' :: (value ++ rest) ∧ Json.IsMargin margin ∧
    Json.IsJson value ∧ Follows stack rest

/-- Where a bracket may close that has just been opened. -/
def LeadsClose (closing : Char) (stack : List Bracket) (t : Text) : Prop :=
  ∃ margin rest, t = margin ++ closing :: rest ∧ Json.IsMargin margin ∧ Follows stack.tail rest

/-- **What is demanded of the text that is left.** -/
def Leads (s : Skim) (t : Text) : Prop :=
  match s.phase with
  | .value => LeadsValue s.stack t
  | .firstItem => LeadsClose ']' s.stack t ∨ LeadsValue s.stack t
  | .key => LeadsKey s.stack t
  | .firstKey => LeadsClose '\x7d' s.stack t ∨ LeadsKey s.stack t
  | .colon => LeadsColon s.stack t
  | .string escape => ∃ inside rest, t = inside ++ '\x22' :: rest ∧
      escape.run inside = some .closed ∧ Follows s.stack rest
  | .keyString escape => ∃ inside rest, t = inside ++ '\x22' :: rest ∧
      escape.run inside = some .closed ∧ LeadsColon s.stack rest
  | .number phase => ∃ digits rest, t = digits ++ rest ∧
      (∀ reversed, ∃ numeral, phase.numeral? reversed digits = some numeral) ∧ Follows s.stack rest
  | .word due => ∃ rest, t = due ++ rest ∧ Follows s.stack rest
  | .complete => Follows s.stack t

/-! White space may be added wherever it may stand. -/

theorem Follows.cons (h : Follows stack t) (hc : Json.isGap c = true) : Follows stack (c :: t) := by
  cases stack with
  | nil => exact h.cons hc
  | cons bracket outer =>
    cases bracket with
    | square =>
      obtain ⟨rest, hrest, hfollows⟩ := h
      exact ⟨rest, hrest.cons hc, hfollows⟩
    | curly =>
      obtain ⟨rest, hrest, hfollows⟩ := h
      exact ⟨rest, hrest.cons hc, hfollows⟩

theorem LeadsValue.cons (h : LeadsValue stack t) (hc : Json.isGap c = true) :
    LeadsValue stack (c :: t) := by
  obtain ⟨value, rest, rfl, hvalue, hfollows⟩ := h
  exact ⟨c :: value, rest, rfl, hvalue.cons hc, hfollows⟩

theorem LeadsKey.cons (h : LeadsKey stack t) (hc : Json.isGap c = true) :
    LeadsKey stack (c :: t) := by
  obtain ⟨keyText, valueText, rest, rfl, hkey, hvalue, hfollows⟩ := h
  exact ⟨c :: keyText, valueText, rest, rfl, hkey.cons hc, hvalue, hfollows⟩

theorem LeadsColon.cons (h : LeadsColon stack t) (hc : Json.isGap c = true) :
    LeadsColon stack (c :: t) := by
  obtain ⟨margin, value, rest, rfl, hmargin, hvalue, hfollows⟩ := h
  exact ⟨c :: margin, value, rest, rfl, hmargin.cons hc, hvalue, hfollows⟩

theorem LeadsClose.cons {closing : Char} (h : LeadsClose closing stack t)
    (hc : Json.isGap c = true) : LeadsClose closing stack (c :: t) := by
  obtain ⟨margin, rest, rfl, hmargin, hfollows⟩ := h
  exact ⟨c :: margin, rest, rfl, hmargin.cons hc, hfollows⟩

/-- **A first character of a value** adds to what is left of it. -/
theorem leads_beginValue (h : beginValue stack c = some next) (hnext : next.Leads t) :
    LeadsValue stack (c :: t) := by
  unfold beginValue at h
  split at h
  · next hc =>
    cases h
    subst hc
    rcases hnext with ⟨margin, rest, rfl, hmargin, hfollows⟩ |
      ⟨value, inner, rfl, hvalue, rest, hrest, hfollows⟩
    · exact ⟨Json.squared margin [], rest, by simp [Json.squared, Text.joined],
        Json.isJson_squared hmargin (List.forall_mem_nil _), hfollows⟩
    · obtain ⟨items, -, hitems, htext⟩ := hrest.exists_items hvalue
      exact ⟨Json.squared [] items, rest, by simp [Json.squared, htext],
        Json.isJson_squared .nil hitems, hfollows⟩
  split at h
  · next hc =>
    cases h
    subst hc
    rcases hnext with ⟨margin, rest, rfl, hmargin, hfollows⟩ |
      ⟨keyText, valueText, inner, rfl, hkey, hvalue, rest, hrest, hfollows⟩
    · exact ⟨Json.braced margin [], rest, by simp [Json.braced, Text.joined],
        Json.isJson_braced hmargin (List.forall_mem_nil _) (List.forall_mem_nil _), hfollows⟩
    · obtain ⟨fields, -, hkeys, hvalues, htext⟩ := hrest.exists_fields hkey hvalue
      exact ⟨Json.braced [] (fields.map Json.memberText), rest, by simp [Json.braced, htext],
        Json.isJson_braced .nil hkeys hvalues, hfollows⟩
  split at h
  · next hc =>
    cases h
    subst hc
    obtain ⟨inside, rest, rfl, hinside, hfollows⟩ := hnext
    exact ⟨'\x22' :: (inside ++ ['\x22']), rest, by simp,
      ⟨0, .string (SkippedEscape.leads_of_run hinside)⟩, hfollows⟩
  split at h
  · next hc =>
    cases h
    subst hc
    obtain ⟨rest, rfl, hfollows⟩ := hnext
    exact ⟨"true".toList, rest, rfl, ⟨0, .bool true⟩, hfollows⟩
  split at h
  · next hc =>
    cases h
    subst hc
    obtain ⟨rest, rfl, hfollows⟩ := hnext
    exact ⟨"false".toList, rest, rfl, ⟨0, .bool false⟩, hfollows⟩
  split at h
  · next hc =>
    cases h
    subst hc
    obtain ⟨rest, rfl, hfollows⟩ := hnext
    exact ⟨"null".toList, rest, rfl, ⟨0, .null⟩, hfollows⟩
  · obtain ⟨phase, hstart, rfl⟩ := Option.map_eq_some_iff.1 h
    obtain ⟨digits, rest, rfl, hdigits, hfollows⟩ := hnext
    obtain ⟨numeral, hnumeral⟩ := hdigits [c]
    have hnumber : numeral? (c :: digits) = some numeral := by
      rw [numeral?, hstart, Option.bind_some, hnumeral]
    exact ⟨c :: digits, rest, rfl, ⟨0, .number hnumber⟩, hfollows⟩

/-- **A character behind a value** adds to what the open brackets demand. -/
theorem leads_afterValue (h : afterValue stack c = some next) (hnext : next.Leads t) :
    Follows stack (c :: t) := by
  unfold afterValue at h
  split at h
  · next hc =>
    cases h
    exact Follows.cons hnext hc
  split at h
  · cases h
  · split at h
    · next hc =>
      cases h
      subst hc
      obtain ⟨value, inner, rfl, hvalue, rest, hrest, hfollows⟩ := hnext
      exact ⟨rest, .more .nil hvalue hrest, hfollows⟩
    split at h
    · next hc =>
      cases h
      subst hc
      exact ⟨t, .close .nil, hnext⟩
    · cases h
  · split at h
    · next hc =>
      cases h
      subst hc
      obtain ⟨keyText, valueText, inner, rfl, hkey, hvalue, rest, hrest, hfollows⟩ := hnext
      exact ⟨rest, .more .nil hkey hvalue hrest, hfollows⟩
    split at h
    · next hc =>
      cases h
      subst hc
      exact ⟨t, .close .nil, hnext⟩
    · cases h

/-- The quote before a key adds to what is left of it. -/
theorem leads_quote (h : Leads ⟨.keyString .closed, stack⟩ t) : LeadsKey stack ('\x22' :: t) := by
  obtain ⟨inside, rest, rfl, hinside, margin, value, tail, rfl, hmargin, hvalue, hfollows⟩ := h
  have hkey : Json.IsKey ('\x22' :: (inside ++ ['\x22']) ++ margin) :=
    .quoted .nil (SkippedEscape.leads_of_run hinside) hmargin
  exact ⟨_, value, tail, by simp [Json.memberText], hkey, hvalue, hfollows⟩

/-- **Each character adds** to what is demanded of the text behind it. -/
theorem leads_step (h : s.step c = some next) (hnext : next.Leads t) : s.Leads (c :: t) := by
  obtain ⟨phase, stack⟩ := s
  unfold step at h
  cases phase with
  | value =>
    dsimp only at h
    split at h
    · next hc =>
      cases h
      exact LeadsValue.cons hnext hc
    · exact leads_beginValue h hnext
  | firstItem =>
    dsimp only at h
    split at h
    · next hc =>
      cases h
      exact hnext.imp (·.cons hc) (·.cons hc)
    split at h
    · next hc =>
      cases h
      subst hc
      exact Or.inl ⟨[], t, rfl, .nil, hnext⟩
    · exact Or.inr (leads_beginValue h hnext)
  | key =>
    dsimp only at h
    split at h
    · next hc =>
      cases h
      exact LeadsKey.cons hnext hc
    split at h
    · next hc =>
      cases h
      subst hc
      exact leads_quote hnext
    · cases h
  | firstKey =>
    dsimp only at h
    split at h
    · next hc =>
      cases h
      exact hnext.imp (·.cons hc) (·.cons hc)
    split at h
    · next hc =>
      cases h
      subst hc
      exact Or.inl ⟨[], t, rfl, .nil, hnext⟩
    split at h
    · next hc =>
      cases h
      subst hc
      exact Or.inr (leads_quote hnext)
    · cases h
  | colon =>
    dsimp only at h
    split at h
    · next hc =>
      cases h
      exact LeadsColon.cons hnext hc
    split at h
    · next hc =>
      cases h
      subst hc
      obtain ⟨value, rest, rfl, hvalue, hfollows⟩ := hnext
      exact ⟨[], value, rest, rfl, .nil, hvalue, hfollows⟩
    · cases h
  | string escape =>
    obtain ⟨result, hstep, rfl⟩ := Option.map_eq_some_iff.1 h
    cases result with
    | more more =>
      obtain ⟨inside, rest, rfl, hinside, hfollows⟩ := hnext
      exact ⟨c :: inside, rest, rfl, by rw [SkippedEscape.run_cons hstep, hinside], hfollows⟩
    | ends =>
      obtain ⟨rfl, rfl⟩ := SkippedEscape.eq_quote_of_ends hstep
      exact ⟨[], t, rfl, rfl, hnext⟩
  | keyString escape =>
    obtain ⟨result, hstep, rfl⟩ := Option.map_eq_some_iff.1 h
    cases result with
    | more more =>
      obtain ⟨inside, rest, rfl, hinside, hcolon⟩ := hnext
      exact ⟨c :: inside, rest, rfl, by rw [SkippedEscape.run_cons hstep, hinside], hcolon⟩
    | ends =>
      obtain ⟨rfl, rfl⟩ := SkippedEscape.eq_quote_of_ends hstep
      exact ⟨[], t, rfl, rfl, hnext⟩
  | number phase =>
    dsimp only at h
    split at h
    · next more hmore =>
      cases h
      obtain ⟨digits, rest, rfl, hdigits, hfollows⟩ := hnext
      refine ⟨c :: digits, rest, rfl, fun reversed => ?_, hfollows⟩
      obtain ⟨numeral, hnumeral⟩ := hdigits ((phase.spelling c).reverse ++ reversed)
      exact ⟨numeral, by rw [NumberPhase.numeral?, hmore]; exact hnumeral⟩
    -- the number ends here, so nothing is left of it
    split at h
    · next hcomplete =>
      refine ⟨[], c :: t, rfl, fun reversed => ⟨reversed.reverse, ?_⟩, leads_afterValue h hnext⟩
      rw [NumberPhase.numeral?, if_pos hcomplete]
    · cases h
  | word due =>
    dsimp only at h
    split at h
    · exact ⟨c :: t, rfl, leads_afterValue h hnext⟩
    · split at h
      · next hc =>
        cases h
        subst hc
        exact ⟨t, rfl, hnext⟩
      · cases h
    · split at h
      · next hc =>
        cases h
        subst hc
        obtain ⟨rest, rfl, hfollows⟩ := hnext
        exact ⟨rest, rfl, hfollows⟩
      · cases h
  | complete => exact leads_afterValue h hnext

/-- So a text that is skipped up to the end of a value is what was demanded
of it. -/
theorem leads_of_run {last : Skim} (h : s.run t = some last) (hlast : last.isComplete = true) :
    s.Leads t := by
  induction t generalizing s with
  | nil =>
    cases h
    obtain ⟨phase, stack⟩ := last
    unfold isComplete at hlast
    split at hlast
    · next hstack hphase =>
      cases hstack
      cases hphase
      exact List.forall_mem_nil _
    · next phase hstack hphase =>
      cases hstack
      cases hphase
      refine ⟨[], [], rfl, fun reversed => ⟨reversed.reverse, ?_⟩, List.forall_mem_nil _⟩
      rw [NumberPhase.numeral?, if_pos hlast]
    · cases hlast
  | cons c t ih =>
    obtain ⟨next, hstep, hrest⟩ := Option.bind_eq_some_iff.1 h
    exact leads_step hstep (ih hrest)

/-- **Exactly the JSON texts are skipped** up to their end. -/
theorem skips_iff : (∃ last, start.run t = some last ∧ last.isComplete = true) ↔ Json.IsJson t := by
  constructor
  · rintro ⟨last, hrun, hlast⟩
    obtain ⟨value, rest, rfl, hvalue, hrest⟩ := leads_of_run hrun hlast
    exact hvalue.append hrest
  · rintro ⟨depth, h⟩
    obtain ⟨last, hrun, hsettled⟩ := skips h []
    refine ⟨last, hrun, ?_⟩
    cases hsettled with
    | complete => rfl
    | number hcomplete => exact hcomplete

end Skim

end ChangeFeed
