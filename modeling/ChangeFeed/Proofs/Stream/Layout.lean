import ChangeFeed.Proofs.Json.Inverse
import ChangeFeed.Proofs.Stream.Composition
import ChangeFeed.Proofs.Text.Encoding
import Mathlib.Data.List.Forall2
/-!
# Layout — line endings and blank lines

How a stream is laid out shows in the number of a failing line and nowhere
else. A carriage return in front of a line feed belongs to the line's ending,
but only one does: a line that has one of its own keeps it when another is put
in, and then it stands behind the JSON text. `step_of_sameLine` is the key: one
carriage return more at the end of a line makes no difference to its step. A
blank line is counted, and that is all.
-/


namespace ChangeFeed

namespace Bytes

/-! ## Line endings -/

/-- **Carriage returns put in** in front of some line feeds. -/
inductive AddsCarriages : Bytes → Bytes → Prop where
  | nil : AddsCarriages [] []
  | keep (b : UInt8) {input other : Bytes} (h : AddsCarriages input other) :
      AddsCarriages (b :: input) (b :: other)
  | carriage {input other : Bytes} (h : AddsCarriages input other) :
      AddsCarriages (10 :: input) (13 :: 10 :: other)

/-- Bytes in front of the input stay as they are. -/
theorem AddsCarriages.append {input other : Bytes} (h : input.AddsCarriages other) :
    ∀ start : Bytes, AddsCarriages (start ++ input) (start ++ other)
  | [] => h
  | b :: rest => .keep b (h.append rest)

/-- The same line, up to a carriage return at its end. -/
def SameLine (line other : Bytes) : Prop := other = line ∨ other = line ++ [13]

/-- Ending a line takes one carriage return at most. -/
theorem sameLine_endLine (reversed : Bytes) : (endLine reversed).SameLine reversed.reverse := by
  unfold endLine
  split
  · exact Or.inr (List.reverse_cons ..)
  · exact Or.inl rfl

/-- What is put in changes no line but for its end. -/
theorem AddsCarriages.linesFrom {input other : Bytes} (h : input.AddsCarriages other)
    (current : Bytes) :
    List.Forall₂ SameLine (linesFrom current input) (linesFrom current other) := by
  induction h generalizing current with
  | nil => exact List.forall₂_same.2 fun line _ => Or.inl rfl
  | keep b h ih =>
    rw [Bytes.linesFrom, Bytes.linesFrom]
    split
    · exact .cons (Or.inl rfl) (ih [])
    · exact ih (b :: current)
  | @carriage input other h ih =>
    -- the new carriage return is the one that the line feed takes along
    have hline : Bytes.linesFrom current (13 :: 10 :: other) =
        current.reverse :: Bytes.linesFrom [] other := rfl
    rw [hline]
    exact .cons (sameLine_endLine current) (ih [])

/-! ## A line put in -/

theorem linesFrom_append_feed {bytes : Bytes} (h : 10 ∉ bytes) (current : Bytes) :
    linesFrom current (bytes ++ [10]) = [endLine (bytes.reverse ++ current)] := by
  induction bytes generalizing current with
  | nil => rfl
  | cons b rest ih =>
    rw [List.mem_cons, not_or] at h
    rw [List.cons_append, linesFrom, if_neg (Ne.symm h.1), ih h.2, List.reverse_cons,
      List.append_assoc, List.singleton_append]

/-- No character but the line feed has its byte. -/
theorem newline_notMem_bytes {t : Text} (h : '\n' ∉ t) : 10 ∉ t.bytes := by
  intro hmem
  obtain ⟨c, hc, hbyte⟩ := List.mem_flatMap.1 hmem
  have hfeed : c = '\n' := eq_of_mem_utf8EncodeChar (by decide) hbyte
  exact h (hfeed ▸ hc)

/-- **A text put in as a line** is one line, up to its end. -/
theorem exists_lines_insert {t : Text} (h : '\n' ∉ t) (rest : Bytes) :
    ∃ line, Bytes.lines (t.bytes ++ 10 :: rest) = line :: rest.lines ∧ line.SameLine t.bytes := by
  have hends : EndsLine (t.bytes ++ [10]) := Or.inr List.getLast?_concat
  have hline := sameLine_endLine t.bytes.reverse
  rw [List.reverse_reverse] at hline
  refine ⟨_, ?_, hline⟩
  rw [← List.singleton_append, ← List.append_assoc, lines_append hends, lines,
    linesFrom_append_feed (newline_notMem_bytes h), List.append_nil, List.singleton_append]

end Bytes

/-! ## One line -/

/-- A carriage return behind a payload changes nothing. -/
theorem Envelope.decode_append_carriage (payload : Bytes) :
    decode (payload ++ [13]) = decode payload := by
  have htext : (payload ++ [13]).text? = payload.text?.map (· ++ ['\r']) :=
    Bytes.text?_append_control (c := '\r') (by decide) payload
  have hread : Json.readBytes? (payload ++ [13]) = Json.readBytes? payload := by
    rw [Json.readBytes?, Json.readBytes?, htext, Option.bind_map]
    exact congrArg _ (funext fun t => Json.read?_append_gap (by decide) t)
  rw [decode, decode, hread]

theorem Stats.empty_add (stats : Stats) : {} + stats = stats := by
  show Stats.mk (0 + _) (0 + _) (0 + _) (0 + _) = stats
  simp only [Nat.zero_add]

/-- The fault of a stream with one line more behind so many. -/
def SyncFault.spread (lines : Nat) : SyncFault → SyncFault
  | unreadable => unreadable
  | malformed line => malformed (if lines < line then line + 1 else line)

namespace Sync

variable {serializer : Serializer} {progress : Progress} {line other : Bytes}

/-- A line that is blank is counted. -/
theorem step_of_isBlank {text : Text} (htext : line.text? = some text)
    (hblank : text.isBlank = true) :
    step serializer progress line = .done (.ok ⟨progress.line + 1, progress.stats⟩) := by
  simp only [step, htext, hblank, if_true]

/-- **A carriage return at the end of a line** makes no difference to its
step, whatever the line is. -/
theorem step_of_sameLine (h : line.SameLine other) :
    step serializer progress other = step serializer progress line := by
  rcases h with rfl | rfl
  · rfl
  · have htext : (line ++ [13]).text? = line.text?.map (· ++ ['\r']) :=
      Bytes.text?_append_control (c := '\r') (by decide) line
    have hspace : isSpace '\r' = true := by decide
    cases hline : line.text? with
    | none => simp [step, htext, hline]
    | some text =>
      have hserialize : serializer.serialize (line ++ [13]) = serializer.serialize line := by
        rw [Serializer.serialize, Serializer.serialize, Envelope.decode_append_carriage]
      have hblank : Text.isBlank (text ++ ['\r']) = text.isBlank := by
        simp [Text.isBlank, hspace]
      simp only [step, htext, hline, Option.map_some, hblank, hserialize]

theorem steps_of_sameLines {lines others : List Bytes}
    (h : List.Forall₂ Bytes.SameLine lines others) (progress : Progress) :
    steps serializer progress others = steps serializer progress lines := by
  induction h generalizing progress with
  | nil => rfl
  | cons hline _ ih =>
    rw [steps, steps, step_of_sameLine hline]
    refine congrArg _ (funext fun result => ?_)
    cases result with
    | error fault => rfl
    | ok next => exact ih next

/-! ## The number of a failing line -/

/-- A line that fails has a number within the lines read. -/
theorem line_of_fault? {lines : List Bytes} {number : Nat}
    (h : fault? progress lines = some (.malformed number)) :
    progress.line < number ∧ number ≤ progress.line + lines.length := by
  obtain ⟨line, hfind, -⟩ := Option.map_eq_some_iff.1 h
  obtain ⟨hfatal, earlier, rest, rfl, hlive⟩ := List.find?_eq_some_iff_append.1 hfind
  rw [fault?_of_first (by simpa using hlive) hfatal] at h
  split at h
  · cases h
  · cases h
    rw [List.length_append, List.length_cons]
    omega

theorem line_of_play_steps_error {lines : List Bytes} {script : Script} {number : Nat}
    (h : ((steps serializer progress lines).play script).result = .error (.malformed number)) :
    progress.line < number ∧ number ≤ progress.line + lines.length := by
  rw [result_play_steps] at h
  split at h
  · next hfault =>
    cases h
    exact line_of_fault? hfault
  · cases h

/-! ## A blank line -/

/-- A blank line leads on to the lines behind it, counted. -/
theorem steps_blank_cons {blank : Text} (hblank : blank.isBlank = true)
    (hline : line.SameLine blank.bytes) (rest : List Bytes) :
    steps serializer {} (line :: rest) = countedOn ⟨1, {}⟩ <$> steps serializer {} rest := by
  have hstep : step serializer {} line = .done (.ok ⟨1, {}⟩) := by
    rw [← step_of_sameLine hline]
    exact step_of_isBlank (Bytes.text?_bytes blank) hblank
  rw [steps, hstep, ← steps_eq_countedOn]
  rfl

/-- Counting a blank line before what is left to count. -/
theorem countedOn_blank (earlier : Progress) {result : Except SyncFault Progress}
    (h : ∀ number, result = .error (.malformed number) → 0 < number) :
    (countedOn earlier (countedOn ⟨1, {}⟩ result)).map Progress.stats =
      ((countedOn earlier result).map Progress.stats).mapError (·.spread earlier.line) := by
  cases result with
  | ok later =>
    have hstats : ({} : Stats) + later.stats = later.stats := later.stats.empty_add
    simp [countedOn, Except.map, Except.mapError, Progress.behind, hstats]
  | error fault =>
    cases fault with
    | unreadable => rfl
    | malformed number =>
      have hnumber := h number rfl
      have hbehind : earlier.line < earlier.line + number := by omega
      have hnext : earlier.line + (1 + number) = earlier.line + number + 1 := by omega
      simp [countedOn, Except.map, Except.mapError, SyncFault.behind, SyncFault.spread, hbehind,
        hnext]

/-- **A blank line between others** is seen in the number of a fault only. -/
theorem play_steps_blank (serializer : Serializer) {blank : Text}
    (hblank : blank.isBlank = true) (hline : line.SameLine blank.bytes)
    (first second : List Bytes) (script : Script) :
    let whole := (steps serializer {} (first ++ second)).play script
    let spread := (steps serializer {} (first ++ line :: second)).play script
    spread.events = whole.events ∧
      spread.result.map Progress.stats =
        (whole.result.map Progress.stats).mapError (·.spread first.length) := by
  dsimp only
  cases hfirst : ((steps serializer {} first).play script).result with
  | error fault =>
    rw [play_steps_append_of_error hfirst, play_steps_append_of_error hfirst, hfirst]
    refine ⟨rfl, ?_⟩
    cases fault with
    | unreadable => rfl
    | malformed number =>
      -- the line that fails comes before the new one
      have hnumber := (line_of_play_steps_error hfirst).2
      have hbefore : ¬ first.length < number := by
        simp only [Nat.zero_add] at hnumber
        omega
      simp [Except.map, Except.mapError, SyncFault.spread, hbefore]
  | ok earlier =>
    have hlines := line_of_play_steps hfirst
    rw [play_steps_append_of_ok hfirst, play_steps_append_of_ok hfirst]
    dsimp only
    rw [steps_blank_cons hblank hline, Session.play_map, ← hlines]
    refine ⟨rfl, countedOn_blank earlier fun number hfault => ?_⟩
    exact (line_of_play_steps_error hfault).1

/-- **The layout of a stream does not matter.** Carriage returns in front of
any of its line feeds change neither the result of a run nor what it writes,
sends or leaves of the script. A line of white space, put in at the beginning
or behind a line feed, changes neither what the run writes and sends nor its
counters; where the run is aborted it still is, in the same way, and the line
that fails is one further down if the new line comes before it. -/
theorem run_of_layout (serializer : Serializer) (script : Script) :
    (∀ {input other : Bytes}, input.AddsCarriages other →
      (run serializer other).play script = (run serializer input).play script) ∧
    ∀ {first second : Bytes} {blank : Text}, first.EndsLine → blank.isBlank = true →
      '\n' ∉ blank →
      let whole := (run serializer (first ++ second)).play script
      let spread := (run serializer (first ++ (blank.bytes ++ 10 :: second))).play script
      Event.output spread.events = Event.output whole.events ∧
      Event.requests spread.events = Event.requests whole.events ∧
      (∀ stats, whole.result = .ok stats → spread.result = .ok stats) ∧
      (whole.result = .error .unreadable → spread.result = .error .unreadable) ∧
      ∀ number, whole.result = .error (.malformed number) →
        spread.result = .error (.malformed
          (if first.lines.length < number then number + 1 else number)) := by
  constructor
  · intro input other h
    rw [play_run, play_run, Bytes.lines, Bytes.lines, steps_of_sameLines (h.linesFrom [])]
  · intro first second blank hfirst hblank hline
    obtain ⟨line, hinsert, hsame⟩ := Bytes.exists_lines_insert hline second
    obtain ⟨hevents, hresult⟩ := play_steps_blank serializer hblank hsame
      first.lines second.lines script
    simp only [play_run, Bytes.lines_append hfirst, hinsert]
    refine ⟨congrArg _ hevents, congrArg _ hevents, ?_, ?_, ?_⟩
    · intro stats hstats
      rw [hresult, hstats]
      rfl
    · intro hfault
      rw [hresult, hfault]
      rfl
    · intro number hfault
      rw [hresult, hfault]
      rfl

/-- A stream whose first line asks for a change is not read otherwise with a
carriage return at the end of that line, nor with an em space in a line of its
own behind it: the change is asked about and ordered, and the line that failed
fails. -/
theorem run_of_layout_second_line :
    let client : Client := ⟨["fe1:8030".toList, "fe2:8030".toList], "root".toList, []⟩
    let routing : Routing := ⟨some "shop.orders".toList, []⟩
    let pattern := (Pattern.parse? defaultPattern).getD .empty
    let serializer : Serializer := ⟨routing, {}, ⟨pattern, none, routing⟩, some client⟩
    let script : Script := ⟨fun n => n, fun _ _ => true,
      fun _ => some ⟨200, "\x7b\"code\":0\x7d".toList⟩, fun _ => none⟩
    let entry : Text :=
      "\x7b\"historyRecord\":\x7b\"ddl\":\"ALTER TABLE t DROP COLUMN c\",".toList ++
      "\"tableChanges\":[\x7b\"type\":\"ALTER\"\x7d]\x7d\x7d".toList
    let first := entry.bytes ++ [10]
    let other := entry.bytes ++ [13, 10]
    let second := Text.bytes "row".toList
    let blank : Text := "\u2003".toList
    let whole := (run serializer (first ++ second)).play script
    let spread := (run serializer (first ++ (blank.bytes ++ 10 :: second))).play script
    first.AddsCarriages other ∧ first.EndsLine ∧ blank.isBlank = true ∧ '\n' ∉ blank ∧
      (run serializer other).play script = (run serializer first).play script ∧
      (Event.requests whole.events).map Request.method = [.get, .post] ∧
      Event.requests spread.events = Event.requests whole.events ∧
      whole.result = .error (.malformed 2) ∧ spread.result = .error (.malformed 3) := by
  intro client routing pattern serializer script entry first other second blank whole spread
  have hother : first.AddsCarriages other := (Bytes.AddsCarriages.carriage .nil).append entry.bytes
  have hfirst : first.EndsLine := Or.inr List.getLast?_concat
  have hblank : blank.isBlank = true := by decide +kernel
  have hline : '\n' ∉ blank := by decide +kernel
  have hwhole : whole.result = .error (.malformed 2) := by
    rw [result_play_run]
    decide +kernel
  obtain ⟨hcarriages, hinsert⟩ := run_of_layout serializer script
  obtain ⟨-, hrequests, -, -, hfault⟩ := @hinsert _ second _ hfirst hblank hline
  have hnumber : first.lines.length < 2 := by decide +kernel
  have hspread := hfault 2 hwhole
  rw [if_pos hnumber] at hspread
  exact ⟨hother, hfirst, hblank, hline, hcarriages hother, by decide +kernel, hrequests, hwhole,
    hspread⟩

end Sync

end ChangeFeed
