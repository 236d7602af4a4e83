import ChangeFeed.Frontend.Script
/-!
# Played sessions — pieces of work, one after the other

A session played against a script uses up what the script says about the
requests that it puts, whether they get through or not, and nothing else:
`script_play` says what is left. A sequence of sessions falls into pieces
(`events_play_bind`), each played against what the earlier ones have left.
-/


namespace ChangeFeed

namespace Script

/-- The script after one event. -/
def next (script : Script) : Event → Script
  | .sent request => script.advance request.method
  | .missed => script.miss
  | .wrote _ => script

/-- The script after some events. -/
def after (script : Script) (events : List Event) : Script := events.foldl next script

@[simp] theorem after_nil (script : Script) : script.after [] = script := rfl

@[simp] theorem after_cons (script : Script) (event : Event) (rest : List Event) :
    script.after (event :: rest) = (script.next event).after rest := rfl

/-- A host that is reached is one of those that are asked for, and can be reached. -/
theorem mem_of_reached? {script : Script} {hosts : List Text} {host : Text}
    (h : script.reached? hosts = some host) : host ∈ hosts ∧ script.reaches 0 host = true := by
  obtain ⟨hpick, hreach⟩ := Option.filter_eq_some_iff.1 h
  exact ⟨List.mem_of_getElem? hpick, hreach⟩

/-- Where all of some hosts can be reached one of them is. -/
theorem exists_reached? {script : Script} {hosts : List Text} (hne : hosts ≠ [])
    (h : ∀ host ∈ hosts, script.reaches 0 host = true) :
    ∃ host, script.reached? hosts = some host := by
  have hlt : script.picks 0 % hosts.length < hosts.length :=
    Nat.mod_lt _ (List.length_pos_iff.2 hne)
  refine ⟨hosts[script.picks 0 % hosts.length], Option.filter_eq_some_iff.2 ⟨?_, ?_⟩⟩
  · exact List.getElem?_eq_getElem hlt
  · exact h _ (List.getElem_mem hlt)

end Script

namespace Event

@[simp] theorem requests_nil : requests [] = [] := rfl

@[simp] theorem requests_sent (request : Request) (rest : List Event) :
    requests (.sent request :: rest) = request :: requests rest := rfl

@[simp] theorem requests_missed (rest : List Event) : requests (.missed :: rest) = requests rest :=
  rfl

@[simp] theorem requests_wrote (line : Text) (rest : List Event) :
    requests (.wrote line :: rest) = requests rest := rfl

@[simp] theorem requests_append (first second : List Event) :
    requests (first ++ second) = requests first ++ requests second := by
  simp [requests]

@[simp] theorem output_nil : output [] = [] := rfl

@[simp] theorem output_sent (request : Request) (rest : List Event) :
    output (.sent request :: rest) = output rest := rfl

@[simp] theorem output_missed (rest : List Event) : output (.missed :: rest) = output rest := rfl

@[simp] theorem output_wrote (line : Text) (rest : List Event) :
    output (.wrote line :: rest) = line ++ output rest := rfl

@[simp] theorem output_append (first second : List Event) :
    output (first ++ second) = output first ++ output second := by
  simp [output]

end Event

namespace Session

variable {α β γ : Type}

/-! ## The laws of sessions -/

theorem bind_done (s : Session α) : s.bind done = s := by
  induction s with
  | done a => rfl
  | ask hosts request next ih => simp [bind, ih]
  | write line next ih => simp [bind, ih]

theorem bind_assoc (s : Session α) (f : α → Session β) (g : β → Session γ) :
    (s.bind f).bind g = s.bind fun a => (f a).bind g := by
  induction s with
  | done a => rfl
  | ask hosts request next ih => simp [bind, ih]
  | write line next ih => simp [bind, ih]

instance : LawfulMonad Session :=
  LawfulMonad.mk' Session
    (fun s => bind_done s)
    (fun _ _ => rfl)
    (fun s f g => bind_assoc s f g)

/-! ## Playing one piece after the other -/

@[simp] theorem play_done (a : α) (script : Script) : (done a).play script = ⟨a, [], script⟩ := rfl

@[simp] theorem play_pure (a : α) (script : Script) :
    (pure a : Session α).play script = ⟨a, [], script⟩ := rfl

theorem bind_eq (s : Session α) (f : α → Session β) : s >>= f = s.bind f := rfl

@[simp] theorem result_play_bind (s : Session α) (f : α → Session β) (script : Script) :
    ((s >>= f).play script).result =
      ((f (s.play script).result).play (s.play script).script).result := by
  rw [bind_eq, play_bind]

@[simp] theorem events_play_bind (s : Session α) (f : α → Session β) (script : Script) :
    ((s >>= f).play script).events =
      (s.play script).events ++
        ((f (s.play script).result).play (s.play script).script).events := by
  rw [bind_eq, play_bind]

@[simp] theorem script_play_bind (s : Session α) (f : α → Session β) (script : Script) :
    ((s >>= f).play script).script =
      ((f (s.play script).result).play (s.play script).script).script := by
  rw [bind_eq, play_bind]

@[simp] theorem play_map (f : α → β) (s : Session α) (script : Script) :
    (f <$> s).play script =
      ⟨f (s.play script).result, (s.play script).events, (s.play script).script⟩ := by
  rw [map_eq_pure_bind, bind_eq, play_bind]
  simp

/-- **What is left of a script.** A session uses up what is said about the
requests it has put, in order, and nothing else. -/
theorem script_play (s : Session α) (script : Script) :
    (s.play script).script = script.after (s.play script).events := by
  induction s generalizing script with
  | done a => rfl
  | ask hosts request next ih =>
    cases h : script.reached? hosts with
    | none => simp [play, h, ih, Script.next]
    | some host => simp [play, h, ih, Script.next]
  | write line next ih => simp [play, ih, Script.next]

end Session

end ChangeFeed
