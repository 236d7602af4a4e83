import ChangeFeed.Proofs.Stream.Run
/-!
# Composition — one stream behind another

A stream may be cut behind any line feed and run in two pieces. The second
piece runs as if it stood alone, with the counters and the line numbers of
the first added on; all it takes over from the first are the answers that
are left of the frontends. `steps_behind` is the key: counting on commutes
with reading lines, so it can be done afterwards.
-/


namespace ChangeFeed

/-! ## Where a stream may be cut -/

namespace Bytes

/-- **The input is whole lines**: it is empty or ends in a line feed. -/
def EndsLine (bytes : Bytes) : Prop := bytes = [] ∨ bytes.getLast? = some 10

theorem linesFrom_append {first : Bytes} (h : first.getLast? = some 10) (current second : Bytes) :
    linesFrom current (first ++ second) = linesFrom current first ++ linesFrom [] second := by
  induction first generalizing current with
  | nil => cases h
  | cons b rest ih =>
    rw [List.cons_append, linesFrom, linesFrom]
    cases rest with
    | nil =>
      -- the last byte is the line feed, so the current line ends with it
      have hb : b = 10 := by simpa using h
      rw [if_pos hb, if_pos hb]
      rfl
    | cons next rest =>
      rw [List.getLast?_cons_cons] at h
      split
      · rw [ih h, List.cons_append]
      · exact ih h _

/-- **The lines of two inputs**, the first of which is whole lines, are the
lines of the one and then of the other. -/
theorem lines_append {first : Bytes} (h : first.EndsLine) (second : Bytes) :
    (first ++ second).lines = first.lines ++ second.lines := by
  rcases h with rfl | h
  · rfl
  · exact linesFrom_append h [] second

end Bytes

/-! ## Counting on -/

/-- Counters are added field by field. -/
instance : Add Stats where
  add a b :=
    { envelopes := a.envelopes + b.envelopes
      records := a.records + b.records
      skipped := a.skipped + b.skipped
      failed := a.failed + b.failed }

/-- The fault of a stream that so many lines come before. -/
def SyncFault.behind (lines : Nat) : SyncFault → SyncFault
  | unreadable => unreadable
  | malformed line => malformed (lines + line)

/-- The progress in a stream, counted on from that in an earlier one. -/
def Progress.behind (earlier progress : Progress) : Progress :=
  ⟨earlier.line + progress.line, earlier.stats + progress.stats⟩

namespace Sync

variable {serializer : Serializer}

/-- **What lines give**, counted on from the progress before them. -/
def countedOn (earlier : Progress) : Except SyncFault Progress → Except SyncFault Progress
  | .error fault => .error (fault.behind earlier.line)
  | .ok progress => .ok (earlier.behind progress)

theorem settle_behind (earlier progress : Progress) (outcome : Except Fault (Option LoadRecord)) :
    settle (earlier.behind progress) outcome = countedOn earlier <$> settle progress outcome := by
  unfold settle
  split <;> rfl

/-- **Counting on commutes with reading a line.** -/
theorem step_behind (earlier progress : Progress) (line : Bytes) :
    step serializer (earlier.behind progress) line =
      countedOn earlier <$> step serializer progress line := by
  cases htext : line.text? with
  | none =>
    simp only [step, htext]
    rfl
  | some text =>
    cases hblank : text.isBlank with
    | true =>
      simp only [step, htext, hblank, if_true]
      rfl
    | false =>
      rw [step_of_envelope htext hblank, step_of_envelope htext hblank, map_bind]
      exact congrArg _ (funext fun outcome => settle_behind earlier ⟨progress.line + 1, _⟩ outcome)

/-- **Counting on commutes with reading lines.** -/
theorem steps_behind (earlier progress : Progress) (lines : List Bytes) :
    steps serializer (earlier.behind progress) lines =
      countedOn earlier <$> steps serializer progress lines := by
  induction lines generalizing progress with
  | nil => rfl
  | cons line rest ih =>
    rw [steps, steps, step_behind, map_bind, bind_map_left]
    refine congrArg _ (funext fun result => ?_)
    cases result with
    | error fault => rfl
    | ok next => exact ih next

/-- The steps over two lists of lines, one after the other. -/
theorem steps_append (progress : Progress) (first second : List Bytes) :
    steps serializer progress (first ++ second) =
      steps serializer progress first >>= fun
        | .error fault => pure (.error fault)
        | .ok next => steps serializer next second := by
  induction first generalizing progress with
  | nil => rfl
  | cons line rest ih =>
    rw [List.cons_append, steps, steps, bind_assoc]
    refine congrArg _ (funext fun result => ?_)
    cases result with
    | error fault => rfl
    | ok next => exact ih next

/-- Nothing is lost by beginning to count anew. -/
theorem steps_eq_countedOn (progress : Progress) (lines : List Bytes) :
    steps serializer progress lines = countedOn progress <$> steps serializer {} lines :=
  steps_behind progress {} lines

/-- Lines that end the run end it whatever comes behind them. -/
theorem play_steps_append_of_error {first second : List Bytes} {script : Script}
    {fault : SyncFault} (h : ((steps serializer {} first).play script).result = .error fault) :
    (steps serializer {} (first ++ second)).play script =
      (steps serializer {} first).play script := by
  rw [steps_append, Session.bind_eq, Session.play_bind]
  simp only [h, Session.play_pure, List.append_nil]
  rw [← h]

/-- **Lines that do not end the run** are followed by the others as these
are played where the first have left off, counted on. -/
theorem play_steps_append_of_ok {first second : List Bytes} {script : Script}
    {progress : Progress}
    (h : ((steps serializer {} first).play script).result = .ok progress) :
    (steps serializer {} (first ++ second)).play script =
      let earlier := (steps serializer {} first).play script
      let later := (steps serializer {} second).play earlier.script
      ⟨countedOn progress later.result, earlier.events ++ later.events, later.script⟩ := by
  rw [steps_append, Session.bind_eq, Session.play_bind]
  simp only [h]
  rw [steps_eq_countedOn, Session.play_map]

/-- The lines of a finished run have all been counted. -/
theorem line_of_play_steps {lines : List Bytes} {script : Script} {progress : Progress}
    (h : ((steps serializer {} lines).play script).result = .ok progress) :
    progress.line = lines.length := by
  rw [result_play_steps] at h
  split at h
  · cases h
  · cases h
    exact Nat.zero_add _

/-! ## Two streams -/

/-- **Streams compose.** A run over whole lines with more input behind them
is the run over the lines alone, if that ends early. Otherwise it goes on as
a run over the rest would by itself, with the answers that are left: all that
the first part has sent and written comes before anything that the second
sends or writes, the counters add up, and a fault in the second part has its
line number moved by the lines of the first. -/
theorem run_composes {first : Bytes} (hfirst : first.EndsLine) (serializer : Serializer)
    (script : Script) (second : Bytes) :
    let earlier := (run serializer first).play script
    let later := (run serializer second).play (script.after earlier.events)
    let whole := (run serializer (first ++ second)).play script
    (∀ fault, earlier.result = .error fault → whole = earlier) ∧
    ∀ stats, earlier.result = .ok stats →
      whole.events = earlier.events ++ later.events ∧
      Event.output whole.events = Event.output earlier.events ++ Event.output later.events ∧
      Event.requests whole.events =
        Event.requests earlier.events ++ Event.requests later.events ∧
      (∀ more, later.result = .ok more → whole.result = .ok (stats + more)) ∧
      ∀ fault, later.result = .error fault →
        whole.result = .error (fault.behind first.lines.length) := by
  dsimp only
  rw [← Session.script_play]
  simp only [play_run, Bytes.lines_append hfirst]
  constructor
  · intro fault hfault
    rw [play_steps_append_of_error (map_eq_error_iff.1 hfault)]
  · intro stats hstats
    obtain ⟨progress, hprogress, rfl⟩ := map_eq_ok_iff.1 hstats
    rw [play_steps_append_of_ok hprogress, ← line_of_play_steps hprogress]
    refine ⟨rfl, Event.output_append _ _, Event.requests_append _ _, ?_, ?_⟩
    · intro more hmore
      obtain ⟨next, hnext, rfl⟩ := map_eq_ok_iff.1 hmore
      simp only [hnext]
      rfl
    · intro fault hfault
      simp only [map_eq_error_iff.1 hfault]
      rfl

/-- A stream is cut between two drops of a column, of which the frontend agrees
to the first alone. Behind the cut the run goes on with the answers that are
left, and ends at a line that is no JSON. -/
theorem run_composes_fourth_line :
    let client : Client := ⟨["fe1:8030".toList, "fe2:8030".toList], "root".toList, []⟩
    let routing : Routing := ⟨some "shop.orders".toList, []⟩
    let pattern := (Pattern.parse? defaultPattern).getD .empty
    let serializer : Serializer := ⟨routing, {}, ⟨pattern, none, routing⟩, some client⟩
    let script : Script := ⟨fun _ => 1, fun _ host => host == "fe2:8030".toList,
      fun n => some ⟨200, if n = 0 then "\x7b\"code\":0\x7d".toList else "refused".toList⟩,
      fun _ => some ⟨200, "\x7b\"code\":0\x7d".toList⟩⟩
    let entry : Text :=
      "\x7b\"historyRecord\":\x7b\"ddl\":\"ALTER TABLE t DROP COLUMN c\",".toList ++
      "\"tableChanges\":[\x7b\"type\":\"ALTER\"\x7d]\x7d\x7d".toList
    let first := Text.bytes ("\x7b\"op\":\"c\"\x7d\n".toList ++ entry ++ ['\n'])
    let second := Text.bytes (entry ++ "\nrow".toList)
    let earlier := (run serializer first).play script
    let whole := (run serializer (first ++ second)).play script
    first.EndsLine ∧ earlier.result = .ok ⟨2, 1, 1, 0⟩ ∧
      whole.result = .error (.malformed 4) ∧
      Event.output whole.events = Event.output earlier.events ∧
      (Event.requests earlier.events).map Request.method = [.get, .post] ∧
      (Event.requests whole.events).map Request.method = [.get, .post, .get] := by
  intro client routing pattern serializer script entry first second earlier whole
  have hfirst : first.EndsLine := Or.inr (by decide +kernel)
  have hearlier : earlier.result = .ok ⟨2, 1, 1, 0⟩ := by
    rw [result_play_run]
    decide +kernel
  have hmethods : (Event.requests earlier.events).map Request.method = [.get, .post] ∧
      (Event.requests ((run serializer second).play (script.after earlier.events)).events).map
        Request.method = [.get] := by decide +kernel
  obtain ⟨-, houtput, hrequests, -, hfault⟩ :=
    (run_composes hfirst serializer script second).2 _ hearlier
  refine ⟨hfirst, hearlier, hfault (.malformed 2) ?_, ?_, hmethods.1, ?_⟩
  · rw [result_play_run]
    decide +kernel
  · rw [houtput, List.append_right_eq_self, events_play_run second, output_play_steps]
    decide +kernel
  · rw [hrequests, List.map_append, hmethods.1, hmethods.2]
    rfl

end Sync

end ChangeFeed
