import ChangeFeed.Proofs.Json.Skipping
/-!
# Outlines — the top level of an array or an object, and nothing deeper

`Json.Outlines` says what an outline is of: an array or an object in which each
value is any JSON text, and each key one that spells a name. Reading the outline
gives exactly that (`outline?_eq_some_iff`), and the texts of the values as they
stand. So one field can be looked up in an answer however deep, and however
odd, the others are.
-/


namespace ChangeFeed

/-! ## Strings that are read up to their end -/

namespace Quoted

/-- What is left of the escape for whoever only skips the string. -/
def skipped (q : Quoted) : SkippedEscape :=
  match q.escape with
  | .closed | .partner _ => .closed
  | .backslash | .partnerMark _ => .backslash
  | .unit due _ _ => .unit due

variable {q next : Quoted} {c : Char} {t inside reversed : Text}

/-- What is read can be skipped. -/
theorem step_skipped (h : q.step c = some (.more next)) :
    q.skipped.step c = some (.more next.skipped) := by
  obtain ⟨escape, text⟩ := q
  unfold step at h
  unfold skipped SkippedEscape.step
  cases escape with
  | closed => grind
  | backslash => grind [Option.map_eq_some_iff]
  | unit due value high =>
    dsimp only at h ⊢
    cases hdigit : digitValue? 16 c with
    | none => simp [hdigit] at h
    | some d =>
      rw [hdigit] at h
      dsimp only at h
      split at h
      · next hdue =>
        obtain ⟨last, hend, heq⟩ := Option.map_eq_some_iff.1 h
        obtain rfl := Step.more.inj heq
        have hclosed : last.escape = .closed ∨ ∃ high, last.escape = .partner high := by
          unfold endUnit at hend
          grind
        rcases hclosed with hclosed | ⟨high, hclosed⟩ <;> simp [hdue, hclosed]
      · next hdue =>
        cases h
        simp [hdue]
  | partner high => grind
  | partnerMark high => grind

theorem run_skipped (h : q.run t = some next) : q.skipped.run t = some next.skipped := by
  induction t generalizing q with
  | nil =>
    cases h
    rfl
  | cons c t ih =>
    unfold run at h
    split at h
    · next middle hstep =>
      rw [SkippedEscape.run_cons (step_skipped hstep)]
      exact ih h
    · cases h

theorem Spoiled.step_eq_none (h : q.Spoiled t) (hrun : q.run t = some next) :
    next.step '\x22' = none := by
  induction t generalizing q with
  | nil =>
    cases hrun
    exact h
  | cons c t ih =>
    rcases h with hnone | ⟨middle, hstep, hspoiled⟩
    · simp [run, hnone] at hrun
    · simp only [run, hstep] at hrun
      exact ih hspoiled hrun

/-- **What is read between quotes is what it spells.** -/
theorem spellsText_of_run (h : run start inside = some ⟨.closed, reversed⟩) :
    SpellsText reversed.reverse inside := by
  have hskipped : SkippedEscape.run .closed inside = some .closed := run_skipped h
  have hquoted : IsQuoted inside := SkippedEscape.leads_of_run hskipped
  rcases hquoted.decides.1 with ⟨text, htext⟩ | hspoiled
  · have hrun := htext.run []
    rw [start] at h
    rw [h, Option.some.injEq, Quoted.mk.injEq] at hrun
    rw [hrun.2, List.append_nil, List.reverse_reverse]
    exact htext
  · have hnone := (hspoiled []).step_eq_none h
    simp [step] at hnone

end Quoted

namespace Json

/-- A field of an object with what stands for its name. -/
structure SpelledField where
  name : Text
  keyText : Text
  valueText : Text

namespace SpelledField

/-- The field as an outline has it. -/
def field (spelled : SpelledField) : Text × Text := (spelled.name, spelled.valueText)

/-- What stands for the field. -/
def text (spelled : SpelledField) : Text := memberText (spelled.keyText, spelled.valueText)

end SpelledField

/-- **What an outline is of.** White space in front of a first item is no part
of it. -/
inductive Outlines : Outline → Text → Prop where
  | array {before margin after : Text} {items : List Text} (hbefore : IsMargin before)
      (hmargin : IsMargin margin) (hafter : IsMargin after)
      (hfirst : ∀ item ∈ items.head?, ∀ c ∈ item.head?, isGap c = false)
      (h : ∀ item ∈ items, IsJson item) :
      Outlines (.array items) (before ++ (squared margin items ++ after))
  | object {before margin after : Text} {fields : List SpelledField} (hbefore : IsMargin before)
      (hmargin : IsMargin margin) (hafter : IsMargin after)
      (hkeys : ∀ field ∈ fields, SpellsKey field.name field.keyText)
      (h : ∀ field ∈ fields, IsJson field.valueText) :
      Outlines (.object (fields.map SpelledField.field))
        (before ++ (braced margin (fields.map SpelledField.text) ++ after))

end Json

namespace OutlinePhase

/-- Reads a text. -/
def run : OutlinePhase → Text → Option OutlinePhase
  | phase, [] => some phase
  | phase, c :: rest => (phase.step c).bind fun next => next.run rest

variable {phase next : OutlinePhase} {skim last : Skim} {items : List Text}
variable {fields : List (Text × Text)} {name reversed text margin rest t : Text} {c : Char}
variable {outline final : Outline}

theorem foldlM_step (phase : OutlinePhase) (t : Text) : t.foldlM step phase = phase.run t := by
  induction t generalizing phase with
  | nil => rfl
  | cons c t ih =>
    rw [List.foldlM_cons, run]
    exact congrArg _ (funext ih)

theorem run_append (phase : OutlinePhase) (first second : Text) :
    phase.run (first ++ second) = (phase.run first).bind fun next => next.run second := by
  induction first generalizing phase with
  | nil => rfl
  | cons c first ih =>
    cases h : phase.step c with
    | none => simp [run, h]
    | some next => simp [run, h, ih]

/-! ## What has an outline -/

/-- White space may stand here. -/
def waits : OutlinePhase → Bool
  | opening | firstItem _ | key _ _ | colon _ _ | closed _ => true
  | _ => false

theorem run_margin (hphase : waits phase = true) (hmargin : Json.IsMargin margin) (rest : Text) :
    phase.run (margin ++ rest) = phase.run rest := by
  induction margin with
  | nil => rfl
  | cons c margin ih =>
    obtain ⟨hc, hmargin⟩ := List.forall_mem_cons.1 hmargin
    have hstep : phase.step c = some phase := by
      cases phase with
      | opening | firstItem | key | colon | closed => exact if_pos hc
      | _ => cases hphase
    rw [List.cons_append, run, hstep, Option.bind_some, ih hmargin]

/-- A phase that hands its characters on to what skips a value, and keeps
them, has kept all of them at its end. -/
theorem run_of_more (wrap : Text → Skim → OutlinePhase)
    (hmore : ∀ reversed skim c next, skim.step c = some next →
      step (wrap reversed skim) c = some (wrap (c :: reversed) next))
    (reversed : Text) (h : skim.run text = some last) :
    run (wrap reversed skim) text = some (wrap (text.reverse ++ reversed) last) := by
  induction text generalizing reversed skim with
  | nil =>
    cases h
    rfl
  | cons c text ih =>
    obtain ⟨middle, hstep, hrest⟩ := Option.bind_eq_some_iff.1 h
    rw [run, hmore reversed skim c middle hstep, Option.bind_some, ih _ hrest]
    simp

/-- The text of an item is kept. -/
theorem run_item (items : List Text) (h : skim.run text = some last) :
    run (.item items [] skim) text = some (.item items text.reverse last) := by
  have hrun := run_of_more (.item items)
    (fun reversed skim c next hstep => by simp only [step, stepItem, hstep]) [] h
  rwa [List.append_nil] at hrun

/-- So is the text of a field. -/
theorem run_field (fields : List (Text × Text)) (name : Text) (h : skim.run text = some last) :
    run (.field fields name [] skim) text = some (.field fields name text.reverse last) := by
  have hrun := run_of_more (.field fields name)
    (fun reversed skim c next hstep => by simp only [step, stepField, hstep]) [] h
  rwa [List.append_nil] at hrun

/-- A complete value outside all brackets goes on with white space only. -/
theorem step_of_settled (h : Skim.Settled [] skim) (hc : c ∈ [',', ']', '\x7d']) :
    skim.step c = none ∧ skim.isComplete = true := by
  have hends : c ∈ NumberPhase.ends := by
    simp only [List.mem_cons, List.not_mem_nil, or_false] at hc
    rcases hc with rfl | rfl | rfl <;> decide
  have hgap : Json.isGap c = false := by
    simp only [List.mem_cons, List.not_mem_nil, or_false] at hc
    rcases hc with rfl | rfl | rfl <;> rfl
  constructor
  · rw [h.step hends]
    simp [Skim.afterValue, hgap]
  · cases h with
    | complete => rfl
    | number hcomplete => exact hcomplete

/-- The items that are due, with the bracket behind them. -/
theorem run_items (items : List Text) {due : List Text} (hne : due ≠ [])
    (h : ∀ item ∈ due, Json.IsJson item) (rest : Text) :
    run (.item items [] .start) (Text.joined [','] due ++ ']' :: rest) =
      run (.closed (.array (items ++ due))) rest := by
  induction due generalizing items with
  | nil => exact absurd rfl hne
  | cons item others ih =>
    obtain ⟨⟨depth, hitem⟩, hothers⟩ := List.forall_mem_cons.1 h
    obtain ⟨last, hskip, hsettled⟩ := Skim.skips hitem []
    have hrun := run_item items hskip
    -- what skips the item goes no further, so the outline goes on itself
    cases others with
    | nil =>
      obtain ⟨hstep, hcomplete⟩ := step_of_settled hsettled (c := ']') (by decide)
      show run _ (item ++ ']' :: rest) = _
      rw [run_append, Skim.start, hrun, Option.bind_some, run]
      simp [step, stepItem, hstep, hcomplete]
    | cons next others =>
      obtain ⟨hstep, hcomplete⟩ := step_of_settled hsettled (c := ',') (by decide)
      rw [Text.joined_cons (by simp), List.append_assoc, List.append_assoc, run_append, Skim.start,
        hrun, Option.bind_some, List.singleton_append, run]
      simp only [step, stepItem, hstep, hcomplete, if_true, Option.bind_some, List.reverse_reverse]
      rw [ih _ (by simp) hothers]
      simp

theorem run_keyString {q more : Quoted} (h : q.run text = some more) :
    run (.keyString fields q) text = some (.keyString fields more) := by
  induction text generalizing q with
  | nil =>
    cases h
    rfl
  | cons c text ih =>
    unfold Quoted.run at h
    split at h
    · next middle hstep =>
      have hkey : step (.keyString fields q) c = some (.keyString fields middle) := by
        simp only [step, hstep]
      rw [run, hkey, Option.bind_some]
      exact ih h
    · cases h

/-- A name and its colon are read up to the value. -/
theorem run_name {keyText : Text} {isFirst : Bool} (h : Json.SpellsKey name keyText) (rest : Text) :
    run (.key isFirst fields) (keyText ++ ':' :: rest) =
      run (.field fields name [] .start) rest := by
  obtain ⟨hbefore, hinside, hafter⟩ := h
  have hopen : step (.key isFirst fields) '\x22' = some (.keyString fields .start) := by
    simp [step, Json.isGap]
  have hclose : step (.keyString fields ⟨.closed, name.reverse ++ []⟩) '\x22' =
      some (.colon fields name) := by
    simp [step, Quoted.step]
  have hcolon : step (.colon fields name) ':' = some (.field fields name [] .start) := by
    simp [step, Json.isGap]
  rw [List.append_assoc, run_margin rfl hbefore, List.append_assoc, List.cons_append, run, hopen,
    Option.bind_some, List.append_assoc, List.singleton_append, run_append, Quoted.start,
    run_keyString (hinside.run []), Option.bind_some, run, hclose, Option.bind_some,
    run_margin rfl hafter, run, hcolon, Option.bind_some]

/-- The fields that are due, with the brace behind them. -/
theorem run_fields {due : List Json.SpelledField} {isFirst : Bool} (hne : due ≠ [])
    (hkeys : ∀ field ∈ due, Json.SpellsKey field.name field.keyText)
    (h : ∀ field ∈ due, Json.IsJson field.valueText) (rest : Text) :
    run (.key isFirst fields)
        (Text.joined [','] (due.map Json.SpelledField.text) ++ '\x7d' :: rest) =
      run (.closed (.object (fields ++ due.map Json.SpelledField.field))) rest := by
  induction due generalizing fields isFirst with
  | nil => exact absurd rfl hne
  | cons field others ih =>
    obtain ⟨hkey, hkeys⟩ := List.forall_mem_cons.1 hkeys
    obtain ⟨⟨depth, hvalue⟩, hothers⟩ := List.forall_mem_cons.1 h
    obtain ⟨last, hskip, hsettled⟩ := Skim.skips hvalue []
    have hrun := run_field fields field.name hskip
    have hfield : ∀ t, run (.key isFirst fields) (field.text ++ t) =
        run (.field fields field.name field.valueText.reverse last) t := by
      intro t
      rw [Json.SpelledField.text, Json.memberText, List.append_assoc, List.cons_append,
        run_name hkey, run_append, Skim.start, hrun, Option.bind_some]
    cases others with
    | nil =>
      obtain ⟨hstep, hcomplete⟩ := step_of_settled hsettled (c := '\x7d') (by decide)
      show run _ (field.text ++ '\x7d' :: rest) = _
      rw [hfield, run]
      simp [step, stepField, hstep, hcomplete, Json.SpelledField.field]
    | cons next others =>
      obtain ⟨hstep, hcomplete⟩ := step_of_settled hsettled (c := ',') (by decide)
      rw [List.map_cons, Text.joined_cons (by simp), List.append_assoc, List.append_assoc, hfield,
        List.singleton_append, run]
      simp only [step, stepField, hstep, hcomplete, if_true, Option.bind_some, List.reverse_reverse]
      rw [ih (by simp) hkeys hothers]
      simp [Json.SpelledField.field]

/-- A first item begins with a character of its own. -/
theorem run_firstItem {depth : Nat} {item : Text} (h : Json.IsText depth item)
    (hfirst : ∀ c ∈ item.head?, Json.isGap c = false) (rest : Text) :
    run (.firstItem []) (item ++ rest) = run (.item [] [] .start) (item ++ rest) := by
  obtain ⟨margin, c, tail, rfl, hmargin, hgap, hclose⟩ := Reading.exists_first h
  cases margin with
  | nil =>
    have hstep : step (.firstItem []) c = step (.item [] [] .start) c := by
      simp [step, hgap, hclose]
    rw [List.nil_append, List.cons_append, run, run, hstep]
  | cons d margin =>
    have hgap := hmargin d List.mem_cons_self
    rw [hfirst d rfl] at hgap
    cases hgap

/-- **What an outline is of is read as that outline.** -/
theorem run_opening (h : Json.Outlines outline t) :
    run .opening t = some (.closed outline) := by
  have hsquare : step .opening '[' = some (.firstItem []) := by simp [step, Json.isGap]
  have hbrace : step .opening '\x7b' = some (.key true []) := by simp [step, Json.isGap]
  have hrest : ∀ {outline after}, Json.IsMargin after →
      run (.closed outline) after = some (.closed outline) := by
    intro outline after hafter
    have hrun : run (.closed outline) (after ++ []) = some (.closed outline) :=
      run_margin rfl hafter []
    rwa [List.append_nil] at hrun
  cases h with
  | @array before margin after items hbefore hmargin hafter hfirst hitems =>
    rw [run_margin rfl hbefore, Json.squared, List.cons_append, run, hsquare, Option.bind_some,
      List.append_assoc, run_margin rfl hmargin, List.append_assoc, List.singleton_append]
    cases items with
    | nil =>
      have hclose : step (.firstItem []) ']' = some (.closed (.array [])) := by
        simp [step, Json.isGap]
      show run _ (']' :: after) = _
      rw [run, hclose, Option.bind_some, hrest hafter]
    | cons item others =>
      obtain ⟨depth, hitem⟩ := hitems item List.mem_cons_self
      have hrun := run_items [] (List.cons_ne_nil item others) hitems after
      obtain ⟨tail, htail⟩ := Text.exists_joined_cons [','] item others
      rw [htail, List.append_assoc] at hrun ⊢
      rw [run_firstItem hitem (hfirst item rfl), hrun, hrest hafter]
      rfl
  | @object before margin after due hbefore hmargin hafter hkeys hvalues =>
    rw [run_margin rfl hbefore, Json.braced, List.cons_append, run, hbrace, Option.bind_some,
      List.append_assoc, run_margin rfl hmargin, List.append_assoc, List.singleton_append]
    cases due with
    | nil =>
      have hclose : step (.key true []) '\x7d' = some (.closed (.object [])) := by
        simp [step, Json.isGap]
      show run _ ('\x7d' :: after) = _
      rw [run, hclose, Option.bind_some, hrest hafter]
      rfl
    | cons field others =>
      rw [run_fields (List.cons_ne_nil field others) hkeys hvalues, hrest hafter]
      rfl

/-! ## Nothing else has one -/

/-- What is left behind the items that have been read. -/
def LeadsItems (final : Outline) (done : List Text) (t : Text) : Prop :=
  ∃ others after, t = others.flatMap (',' :: ·) ++ ']' :: after ∧ Json.IsMargin after ∧
    (∀ item ∈ others, Json.IsJson item) ∧ final = .array (done ++ others)

/-- What is left behind the fields that have been read. -/
def LeadsFields (final : Outline) (done : List (Text × Text)) (t : Text) : Prop :=
  ∃ (others : List Json.SpelledField) (after : Text),
    t = others.flatMap (fun field => ',' :: field.text) ++ '\x7d' :: after ∧ Json.IsMargin after ∧
    (∀ field ∈ others, Json.SpellsKey field.name field.keyText) ∧
    (∀ field ∈ others, Json.IsJson field.valueText) ∧
    final = .object (done ++ others.map Json.SpelledField.field)

/-- What is left behind a name. -/
def LeadsColon (final : Outline) (done : List (Text × Text)) (name t : Text) : Prop :=
  ∃ margin value rest, t = margin ++ ':' :: (value ++ rest) ∧ Json.IsMargin margin ∧
    Json.IsJson value ∧ LeadsFields final (done ++ [(name, value)]) rest

/-- What is left where a field is due. -/
def LeadsField (final : Outline) (done : List (Text × Text)) (t : Text) : Prop :=
  ∃ (field : Json.SpelledField) (rest : Text), t = field.text ++ rest ∧
    Json.SpellsKey field.name field.keyText ∧ Json.IsJson field.valueText ∧
    LeadsFields final (done ++ [field.field]) rest

/-- **What is left of a text** that has this outline in the end. -/
def Leads (final : Outline) : OutlinePhase → Text → Prop
  | opening, t => Json.Outlines final t
  | firstItem items, t =>
    (∃ margin after, t = margin ++ ']' :: after ∧ Json.IsMargin margin ∧ Json.IsMargin after ∧
      final = .array items) ∨
    ∃ margin item rest, t = margin ++ (item ++ rest) ∧ Json.IsMargin margin ∧ Json.IsJson item ∧
      (∀ c ∈ item.head?, Json.isGap c = false) ∧ LeadsItems final (items ++ [item]) rest
  | item items reversed skim, t =>
    ∃ more rest, t = more ++ rest ∧ (∃ last, skim.run more = some last ∧ last.isComplete = true) ∧
      LeadsItems final (items ++ [reversed.reverse ++ more]) rest
  | key isFirst fields, t =>
    (isFirst = true ∧ ∃ margin after, t = margin ++ '\x7d' :: after ∧ Json.IsMargin margin ∧
      Json.IsMargin after ∧ final = .object fields) ∨ LeadsField final fields t
  | keyString fields q, t =>
    ∃ inside name rest, t = inside ++ '\x22' :: rest ∧ q.run inside = some ⟨.closed, name.reverse⟩ ∧
      LeadsColon final fields name rest
  | colon fields name, t => LeadsColon final fields name t
  | field fields name reversed skim, t =>
    ∃ more rest, t = more ++ rest ∧ (∃ last, skim.run more = some last ∧ last.isComplete = true) ∧
      LeadsFields final (fields ++ [(name, reversed.reverse ++ more)]) rest
  | closed outline, t => Json.IsMargin t ∧ outline = final

theorem leads_stepItem (h : stepItem items reversed skim c = some next)
    (hnext : Leads final next t) : Leads final (.item items reversed skim) (c :: t) := by
  unfold stepItem at h
  split at h
  · next middle hstep =>
    cases h
    obtain ⟨more, rest, rfl, ⟨last, hrun, hlast⟩, hrest⟩ := hnext
    refine ⟨c :: more, rest, rfl, ⟨last, by rw [Skim.run, hstep]; exact hrun, hlast⟩, ?_⟩
    simpa using hrest
  split at h
  · next hcomplete =>
    -- the item is at its end, so nothing is left of it
    have hdone : ∃ last, skim.run [] = some last ∧ last.isComplete = true := ⟨skim, rfl, hcomplete⟩
    split at h
    · next hc =>
      cases h
      subst hc
      obtain ⟨more, rest, rfl, hmore, others, after, rfl, hafter, hothers, hfinal⟩ := hnext
      refine ⟨[], _, rfl, hdone, more :: others, after, by simp, hafter, ?_, ?_⟩
      · exact List.forall_mem_cons.2 ⟨Skim.skips_iff.1 hmore, hothers⟩
      · simpa using hfinal
    split at h
    · next hc =>
      cases h
      subst hc
      obtain ⟨hafter, hfinal⟩ := hnext
      exact ⟨[], _, rfl, hdone, [], t, rfl, hafter, List.forall_mem_nil _,
        by simpa using hfinal.symm⟩
    · cases h
  · cases h

theorem leads_stepField (h : stepField fields name reversed skim c = some next)
    (hnext : Leads final next t) : Leads final (.field fields name reversed skim) (c :: t) := by
  unfold stepField at h
  split at h
  · next middle hstep =>
    cases h
    obtain ⟨more, rest, rfl, ⟨last, hrun, hlast⟩, hrest⟩ := hnext
    refine ⟨c :: more, rest, rfl, ⟨last, by rw [Skim.run, hstep]; exact hrun, hlast⟩, ?_⟩
    simpa using hrest
  split at h
  · next hcomplete =>
    have hdone : ∃ last, skim.run [] = some last ∧ last.isComplete = true := ⟨skim, rfl, hcomplete⟩
    split at h
    · next hc =>
      cases h
      subst hc
      rcases hnext with ⟨hfirst, -⟩ | ⟨field, rest, rfl, hkey, hvalue, hrest⟩
      · cases hfirst
      · obtain ⟨others, after, rfl, hafter, hkeys, hvalues, hfinal⟩ := hrest
        refine ⟨[], _, rfl, hdone, field :: others, after, by simp, hafter,
          List.forall_mem_cons.2 ⟨hkey, hkeys⟩, List.forall_mem_cons.2 ⟨hvalue, hvalues⟩, ?_⟩
        simpa using hfinal
    split at h
    · next hc =>
      cases h
      subst hc
      obtain ⟨hafter, hfinal⟩ := hnext
      exact ⟨[], _, rfl, hdone, [], t, rfl, hafter, List.forall_mem_nil _,
        List.forall_mem_nil _, by simpa using hfinal.symm⟩
    · cases h
  · cases h

/-- White space may be added wherever it may stand. -/
theorem leads_gap (hphase : waits phase = true) (hc : Json.isGap c = true)
    (h : Leads final phase t) : Leads final phase (c :: t) := by
  cases phase with
  | opening =>
    cases h with
    | array hbefore hmargin hafter hfirst hitems =>
      exact .array (hbefore.cons hc) hmargin hafter hfirst hitems
    | object hbefore hmargin hafter hkeys hvalues =>
      exact .object (hbefore.cons hc) hmargin hafter hkeys hvalues
  | firstItem items =>
    rcases h with ⟨margin, after, rfl, hmargin, hafter, hfinal⟩ |
      ⟨margin, item, rest, rfl, hmargin, hitem, hfirst, hrest⟩
    · exact Or.inl ⟨c :: margin, after, rfl, hmargin.cons hc, hafter, hfinal⟩
    · exact Or.inr ⟨c :: margin, item, rest, rfl, hmargin.cons hc, hitem, hfirst, hrest⟩
  | key isFirst fields =>
    rcases h with ⟨hfirst, margin, after, rfl, hmargin, hafter, hfinal⟩ |
      ⟨field, rest, rfl, hkey, hvalue, hrest⟩
    · exact Or.inl ⟨hfirst, c :: margin, after, rfl, hmargin.cons hc, hafter, hfinal⟩
    · exact Or.inr ⟨⟨field.name, c :: field.keyText, field.valueText⟩, rest, rfl, hkey.cons hc,
        hvalue, hrest⟩
  | colon fields name =>
    obtain ⟨margin, value, rest, rfl, hmargin, hvalue, hrest⟩ := h
    exact ⟨c :: margin, value, rest, rfl, hmargin.cons hc, hvalue, hrest⟩
  | closed outline => exact ⟨h.1.cons hc, h.2⟩
  | _ => cases hphase

/-- The bracket before the items of an array. -/
theorem leads_square (h : Leads final (.firstItem []) t) : Json.Outlines final ('[' :: t) := by
  rcases h with ⟨margin, after, rfl, hmargin, hafter, rfl⟩ |
    ⟨margin, item, rest, rfl, hmargin, hitem, hfirst, others, after, rfl, hafter, hothers, rfl⟩
  · have harray : Json.Outlines (.array []) _ := .array .nil hmargin hafter nofun nofun
    simpa [Json.squared, Text.joined] using harray
  · have hhead : ∀ first ∈ (item :: others).head?, ∀ c ∈ first.head?, Json.isGap c = false := by
      rintro _ ⟨⟩
      exact hfirst
    have harray := Json.Outlines.array .nil hmargin hafter hhead
      (List.forall_mem_cons.2 ⟨hitem, hothers⟩)
    simpa [Json.squared, Text.joined_cons_eq_flatMap] using harray

/-- The brace before the fields of an object. -/
theorem leads_curly (h : Leads final (.key true []) t) : Json.Outlines final ('\x7b' :: t) := by
  rcases h with ⟨-, margin, after, rfl, hmargin, hafter, rfl⟩ |
    ⟨field, rest, rfl, hkey, hvalue, others, after, rfl, hafter, hkeys, hvalues, rfl⟩
  · have hobject := Json.Outlines.object .nil hmargin hafter (List.forall_mem_nil _)
      (List.forall_mem_nil _)
    simpa [Json.braced, Text.joined] using hobject
  · have hobject := Json.Outlines.object .nil .nil hafter
      (List.forall_mem_cons.2 ⟨hkey, hkeys⟩) (List.forall_mem_cons.2 ⟨hvalue, hvalues⟩)
    simpa [Json.braced, Text.joined_cons_eq_flatMap, List.flatMap_map] using hobject

/-- The first character of a first item. -/
theorem leads_beginItem (hc : Json.isGap c = false)
    (h : stepItem items [] .start c = some next) (hnext : Leads final next t) :
    Leads final (.firstItem items) (c :: t) := by
  obtain ⟨more, rest, htext, hmore, hrest⟩ := leads_stepItem h hnext
  refine Or.inr ⟨[], more, rest, htext, .nil, Skim.skips_iff.1 hmore, ?_, hrest⟩
  -- something of the item stands here, since nothing is no value
  cases more with
  | nil =>
    obtain ⟨last, hrun, hlast⟩ := hmore
    cases hrun
    cases hlast
  | cons d more =>
    rintro _ ⟨⟩
    rwa [← (List.cons.inj htext).1]

/-- The quote before a name. -/
theorem leads_quote (h : Leads final (.keyString fields .start) t) :
    LeadsField final fields ('\x22' :: t) := by
  obtain ⟨inside, name, rest, rfl, hinside, margin, value, tail, rfl, hmargin, hvalue, hrest⟩ := h
  have hname := Quoted.spellsText_of_run hinside
  rw [List.reverse_reverse] at hname
  exact ⟨⟨name, '\x22' :: (inside ++ ['\x22']) ++ margin, value⟩, tail,
    by simp [Json.SpelledField.text, Json.memberText], .quoted .nil hname hmargin, hvalue, hrest⟩

/-- **Each character adds** to what is left. -/
theorem leads_step (h : phase.step c = some next) (hnext : Leads final next t) :
    Leads final phase (c :: t) := by
  unfold step at h
  cases phase with
  | opening =>
    dsimp only at h
    split at h
    · next hc =>
      cases h
      exact leads_gap rfl hc hnext
    split at h
    · next hc =>
      cases h
      exact hc ▸ leads_square hnext
    split at h
    · next hc =>
      cases h
      exact hc ▸ leads_curly hnext
    · cases h
  | firstItem items =>
    dsimp only at h
    split at h
    · next hc =>
      cases h
      exact leads_gap rfl hc hnext
    split at h
    · next hc =>
      cases h
      subst hc
      obtain ⟨hafter, hfinal⟩ := hnext
      exact Or.inl ⟨[], t, rfl, .nil, hafter, hfinal.symm⟩
    · next hc _ => exact leads_beginItem (Bool.eq_false_iff.2 hc) h hnext
  | item items reversed skim => exact leads_stepItem h hnext
  | key isFirst fields =>
    dsimp only at h
    split at h
    · next hc =>
      cases h
      exact leads_gap rfl hc hnext
    split at h
    · next hc =>
      cases h
      obtain ⟨rfl, hfirst⟩ := hc
      obtain ⟨hafter, hfinal⟩ := hnext
      exact Or.inl ⟨hfirst, [], t, rfl, .nil, hafter, hfinal.symm⟩
    split at h
    · next hc =>
      cases h
      exact Or.inr (hc ▸ leads_quote hnext)
    · cases h
  | keyString fields q =>
    dsimp only at h
    split at h
    · cases h
    · next middle hstep =>
      cases h
      obtain ⟨inside, name, rest, rfl, hinside, hcolon⟩ := hnext
      exact ⟨c :: inside, name, rest, rfl, by rw [Quoted.run, hstep]; exact hinside, hcolon⟩
    · next name hstep =>
      cases h
      obtain ⟨rfl, rfl⟩ := Quoted.eq_quote_of_ends hstep
      exact ⟨[], name, t, rfl, rfl, hnext⟩
  | colon fields name =>
    dsimp only at h
    split at h
    · next hc =>
      cases h
      exact leads_gap rfl hc hnext
    split at h
    · next hc =>
      cases h
      subst hc
      obtain ⟨more, rest, rfl, hmore, hrest⟩ := hnext
      exact ⟨[], more, rest, rfl, .nil, Skim.skips_iff.1 hmore, hrest⟩
    · cases h
  | field fields name reversed skim => exact leads_stepField h hnext
  | closed outline =>
    dsimp only at h
    split at h
    · next hc =>
      cases h
      exact leads_gap rfl hc hnext
    · cases h

theorem leads_of_run (h : phase.run t = some (.closed final)) : Leads final phase t := by
  induction t generalizing phase with
  | nil =>
    cases h
    exact ⟨List.forall_mem_nil _, rfl⟩
  | cons c t ih =>
    obtain ⟨next, hstep, hrest⟩ := Option.bind_eq_some_iff.1 h
    exact leads_step hstep (ih hrest)

end OutlinePhase

/-- **The outline of a text is what it is an outline of**: nothing else is
read, and nothing of it is refused. -/
theorem Json.outline?_eq_some_iff {t : Text} {outline : Outline} :
    outline? t = some outline ↔ Outlines outline t := by
  unfold outline?
  rw [OutlinePhase.foldlM_step]
  constructor
  · intro h
    split at h
    · next hrun =>
      cases h
      exact OutlinePhase.leads_of_run hrun
    · cases h
  · intro h
    rw [OutlinePhase.run_opening h]

end ChangeFeed
