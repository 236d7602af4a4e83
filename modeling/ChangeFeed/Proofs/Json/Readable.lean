import ChangeFeed.Json.Reader
import ChangeFeed.Json.Writer
import ChangeFeed.Proofs.Json.Numeral
/-!
# Readable values — what the reader can give

A value that has been read is more than a tree: its numbers are spelled out,
no object repeats a key or begins with the reserved one, and its brackets
nest no deeper than the limit. `Reading.Sound` is the invariant that carries
this from one character to the next, with the room that the open brackets
leave, and `readable_of_read?` is what it comes to at the end. A readable
value is written without a control character, so on one line.
-/


namespace ChangeFeed

/-- **Keys an object can have**: none repeated, and the first not reserved. -/
structure Members.Keyed (members : Members) : Prop where
  nodup : members.keys.Nodup
  first : members.keys.head? ≠ some Json.numeralKey

namespace Members

variable {members : Members} {key : Text} {value : Json}

theorem keyed_nil : Keyed [] := ⟨List.nodup_nil, nofun⟩

/-- Setting a key repeats none. -/
theorem nodup_keys_put (h : members.keys.Nodup) : (members.put key value).keys.Nodup := by
  rw [keys_put]
  split
  case isTrue => exact h
  case isFalse hnew =>
    rw [List.nodup_append]
    refine ⟨h, by simp, ?_⟩
    rintro a ha b hb rfl
    exact hnew (List.mem_singleton.1 hb ▸ ha)

/-- Setting a key keeps the keys, unless it makes the reserved key the
first. -/
theorem Keyed.put (h : members.Keyed) (hkey : members = [] → key ≠ Json.numeralKey) :
    (members.put key value).Keyed := by
  constructor
  · exact nodup_keys_put h.nodup
  · cases members with
    | nil =>
      intro hhead
      exact hkey rfl (Option.some.inj hhead)
    | cons member rest =>
      have hfirst := h.first
      unfold Members.put
      split <;> exact hfirst

/-- A new key goes last. -/
theorem put_of_notMem (h : key ∉ members.keys) :
    members.put key value = members ++ [(key, value)] := by
  induction members with
  | nil => rfl
  | cons first rest ih =>
    rw [keys, List.map_cons, List.mem_cons, not_or] at h
    rw [put, if_neg (Ne.symm h.1), ih h.2]
    rfl

/-- What holds of the new value and of all the old ones holds after setting
a key. -/
theorem forall_put {p : Json → Prop} (key : Text) (h : ∀ member ∈ members, p member.2)
    (hvalue : p value) : ∀ member ∈ members.put key value, p member.2 := by
  induction members with
  | nil =>
    intro member hmember
    rw [List.mem_singleton.1 hmember]
    exact hvalue
  | cons first rest ih =>
    have hrest : ∀ member ∈ rest, p member.2 :=
      fun member hmember => h member (List.mem_cons_of_mem first hmember)
    unfold put
    split
    · rw [List.forall_mem_cons]
      exact ⟨hvalue, hrest⟩
    · rw [List.forall_mem_cons]
      exact ⟨h first List.mem_cons_self, ih hrest⟩

/-- A value that is found is one of the members'. -/
theorem mem_of_find? (h : members.find? key = some value) : (key, value) ∈ members := by
  induction members with
  | nil => cases h
  | cons first rest ih =>
    unfold find? at h
    split at h
    · cases h
      subst key
      exact List.mem_cons_self
    · exact List.mem_cons_of_mem first (ih h)

end Members

namespace Json

/-- **A value that can be read** where that many more brackets may open. -/
inductive Readable : Nat → Json → Prop where
  | null {room : Nat} : Readable room .null
  | bool {room : Nat} (b : Bool) : Readable room (.bool b)
  | number {room : Nat} {numeral : Text} (h : numeral? numeral = some numeral) :
      Readable room (.number numeral)
  | string {room : Nat} (text : Text) : Readable room (.string text)
  | array {room : Nat} {items : List Json} (h : ∀ item ∈ items, Readable room item) :
      Readable (room + 1) (.array items)
  | object {room : Nat} {members : Members} (hkeys : members.Keyed)
      (h : ∀ member ∈ members, Readable room member.2) :
      Readable (room + 1) (.object members)

namespace Readable

variable {room other : Nat} {value : Json}

/-- More room does no harm. -/
theorem mono (h : value.Readable room) (hroom : room ≤ other) : value.Readable other := by
  induction h generalizing other with
  | null => exact .null
  | bool b => exact .bool b
  | number h => exact .number h
  | string text => exact .string text
  | array _ ih =>
    obtain ⟨more, rfl⟩ : ∃ more, other = more + 1 := ⟨other - 1, by omega⟩
    exact .array fun item hitem => ih item hitem (by omega)
  | object hkeys _ ih =>
    obtain ⟨more, rfl⟩ : ∃ more, other = more + 1 := ⟨other - 1, by omega⟩
    exact .object hkeys fun member hmember => ih member hmember (by omega)

theorem of_object {members : Members} (h : (Json.object members).Readable (room + 1)) :
    members.Keyed ∧ ∀ member ∈ members, member.2.Readable room := by
  cases h with
  | object hkeys h => exact ⟨hkeys, h⟩

/-- A member of a readable object is readable. -/
theorem of_get? {key : Text} {found : Json} (h : value.Readable room)
    (hget : value.get? key = some found) : found.Readable room := by
  cases h with
  | object _ h => exact (h _ (Members.mem_of_find? hget)).mono (by omega)
  | _ => cases hget

end Readable

end Json

/-! ## The invariant of a reading -/

/-- What has been read inside an open bracket, where that many more may
open. -/
def Frame.Sound (room : Nat) : Frame → Prop
  | .array reversed => ∀ item ∈ reversed, item.Readable room
  | .object members key =>
    members.Keyed ∧ (members = [] → key ≠ Json.numeralKey) ∧
      ∀ member ∈ members, member.2.Readable room
  | .numeral => True

/-- What has been read of the value under way. -/
def Phase.Sound (room : Nat) : Phase → Prop
  | .number phase reversed => phase.Spelled reversed
  | .word due whole => due ≠ [] ∧ (∀ c ∈ due, Json.isGap c = false) ∧ whole.Readable room
  | .complete whole => whole.Readable room
  | _ => True

namespace Reading

/-- How many more brackets may open. -/
def room (stack : List Frame) : Nat := Json.maxDepth - stack.length

/-- All that has been read inside the open brackets, of which there are not
too many. -/
def StackSound : List Frame → Prop
  | [] => True
  | frame :: rest => rest.length < Json.maxDepth ∧ frame.Sound (room (frame :: rest)) ∧
      StackSound rest

/-- **What has been read so far is readable.** -/
structure Sound (r : Reading) : Prop where
  phase : r.phase.Sound (room r.stack)
  stack : StackSound r.stack

variable {stack rest : List Frame} {frame : Frame} {r next : Reading} {c : Char} {value : Json}

/-- A bracket takes one place. -/
theorem room_of_cons (frame : Frame) (h : rest.length < Json.maxDepth) :
    room rest = room (frame :: rest) + 1 := by
  unfold room
  rw [List.length_cons]
  omega

/-- Closing a bracket leaves what was read outside it, and room for what the
bracket holds. -/
theorem StackSound.tail (h : StackSound stack) :
    StackSound stack.tail ∧ ∃ inner, room stack.tail = inner + 1 := by
  cases stack with
  | nil => exact ⟨h, Json.maxDepth - 1, rfl⟩
  | cons frame rest =>
    obtain ⟨hroom, -, hrest⟩ := h
    exact ⟨hrest, _, room_of_cons frame hroom⟩

theorem sound_start : Sound start := ⟨trivial, trivial⟩

theorem sound_openBracket {phase : Phase} (h : StackSound stack)
    (hopen : openBracket phase frame stack = some next) (hphase : ∀ room, phase.Sound room)
    (hframe : ∀ room, frame.Sound room) : next.Sound := by
  unfold openBracket at hopen
  split at hopen
  · cases hopen
    exact ⟨hphase _, ‹_›, hframe _, h⟩
  · cases hopen

theorem sound_beginValue (h : StackSound stack) (hbegin : beginValue stack c = some next) :
    next.Sound := by
  have hfirst : ([] : Text) ≠ Json.numeralKey := by decide
  unfold beginValue at hbegin
  split at hbegin
  · exact sound_openBracket h hbegin (fun _ => trivial) (fun _ => nofun)
  split at hbegin
  · exact sound_openBracket h hbegin (fun _ => trivial)
      (fun _ => ⟨Members.keyed_nil, fun _ => hfirst, nofun⟩)
  split at hbegin
  · cases hbegin
    exact ⟨trivial, h⟩
  split at hbegin
  · cases hbegin
    exact ⟨⟨by decide, by simp [Json.isGap], .bool true⟩, h⟩
  split at hbegin
  · cases hbegin
    exact ⟨⟨by decide, by simp [Json.isGap], .bool false⟩, h⟩
  split at hbegin
  · cases hbegin
    exact ⟨⟨by decide, by simp [Json.isGap], .null⟩, h⟩
  · obtain ⟨phase, hstart, rfl⟩ := Option.map_eq_some_iff.1 hbegin
    exact ⟨.start hstart, h⟩

/-- **A complete value is taken into the bracket around it.** -/
theorem sound_afterValue (hvalue : value.Readable (room stack)) (h : StackSound stack)
    (hafter : afterValue value stack c = some next) : next.Sound := by
  unfold afterValue at hafter
  split at hafter
  · cases hafter
    exact ⟨hvalue, h⟩
  split at hafter
  · cases hafter
  case h_2 reversed rest =>
    obtain ⟨hroom, hitems, hrest⟩ := h
    have hall : ∀ item ∈ value :: reversed, item.Readable (room (.array reversed :: rest)) :=
      List.forall_mem_cons.2 ⟨hvalue, hitems⟩
    split at hafter
    · cases hafter
      exact ⟨trivial, hroom, hall, hrest⟩
    split at hafter
    · cases hafter
      refine ⟨?_, hrest⟩
      show Json.Readable (room rest) _
      rw [room_of_cons (.array reversed) hroom]
      exact .array fun item hitem => hall item (List.mem_reverse.1 hitem)
    · cases hafter
  case h_3 members key rest =>
    obtain ⟨hroom, ⟨hkeys, hkey, hmembers⟩, hrest⟩ := h
    -- the key was seen not to be reserved when it was taken
    have hput : (members.put key value).Keyed := hkeys.put hkey
    have hall := Members.forall_put key hmembers hvalue
    split at hafter
    · cases hafter
      refine ⟨trivial, hroom, ⟨hput, ?_, hall⟩, hrest⟩
      intro _
      decide
    split at hafter
    · cases hafter
      refine ⟨?_, hrest⟩
      show Json.Readable (room rest) _
      rw [room_of_cons (.object members key) hroom]
      exact .object hput hall
    · cases hafter
  case h_4 rest =>
    obtain ⟨-, -, hrest⟩ := h
    split at hafter
    · -- what is read under the reserved key is respelled, so it is a number's text
      obtain ⟨number, hnumber, rfl⟩ := Option.map_eq_some_iff.1 hafter
      refine ⟨?_, hrest⟩
      unfold Json.ofNumeral? at hnumber
      split at hnumber
      · obtain ⟨numeral, hnumeral, rfl⟩ := Option.map_eq_some_iff.1 hnumber
        exact .number (numeral?_of_numeral? hnumeral)
      · cases hnumber
    · cases hafter

theorem sound_beginKey (h : StackSound stack) (hbegin : beginKey stack c = some next) :
    next.Sound := by
  unfold beginKey at hbegin
  split at hbegin
  · cases hbegin
    exact ⟨trivial, h⟩
  · cases hbegin

/-- **A key is never the reserved one where it would come first**: the
object then stands for a number and keeps no member. -/
theorem sound_endKey {key : Text} (h : StackSound stack) (hend : endKey key stack = some next) :
    next.Sound := by
  unfold endKey at hend
  split at hend
  case h_1 members old rest =>
    obtain ⟨hroom, ⟨hkeys, -, hmembers⟩, hrest⟩ := h
    cases hend
    refine ⟨trivial, hroom, ?_, hrest⟩
    show Frame.Sound (room (.numeral :: rest)) _
    cases hreserved : (members.isEmpty && key == Json.numeralKey) with
    | true => exact trivial
    | false =>
      refine ⟨hkeys, ?_, hmembers⟩
      rintro rfl rfl
      simp at hreserved
  · cases hend

/-! ## The invariant holds along a reading -/

/-- **One character keeps the invariant.** -/
theorem Sound.step (h : r.Sound) (hstep : r.step c = some next) : next.Sound := by
  obtain ⟨hphase, hstack⟩ := h
  obtain ⟨phase, stack⟩ := r
  -- a bracket that closes at once is read against the stack without it
  obtain ⟨htail, inner, hinner⟩ := hstack.tail
  unfold Reading.step at hstep
  cases phase with
  | value =>
    dsimp only at hstep
    split at hstep
    · cases hstep
      exact ⟨hphase, hstack⟩
    · exact sound_beginValue hstack hstep
  | firstItem =>
    dsimp only at hstep
    split at hstep
    · cases hstep
      exact ⟨hphase, hstack⟩
    split at hstep
    · cases hstep
      refine ⟨?_, htail⟩
      show Json.Readable (room stack.tail) _
      rw [hinner]
      exact .array nofun
    · exact sound_beginValue hstack hstep
  | key =>
    dsimp only at hstep
    split at hstep
    · cases hstep
      exact ⟨hphase, hstack⟩
    · exact sound_beginKey hstack hstep
  | firstKey =>
    dsimp only at hstep
    split at hstep
    · cases hstep
      exact ⟨hphase, hstack⟩
    split at hstep
    · cases hstep
      refine ⟨?_, htail⟩
      show Json.Readable (room stack.tail) _
      rw [hinner]
      exact .object Members.keyed_nil nofun
    · exact sound_beginKey hstack hstep
  | colon =>
    dsimp only at hstep
    split at hstep
    · cases hstep
      exact ⟨hphase, hstack⟩
    split at hstep
    · cases hstep
      exact ⟨trivial, hstack⟩
    · cases hstep
  | string q =>
    dsimp only at hstep
    split at hstep
    · cases hstep
    · cases hstep
      exact ⟨trivial, hstack⟩
    · cases hstep
      exact ⟨.string _, hstack⟩
  | keyString q =>
    dsimp only at hstep
    split at hstep
    · cases hstep
    · cases hstep
      exact ⟨trivial, hstack⟩
    · exact sound_endKey hstack hstep
  | number phase reversed =>
    dsimp only at hstep
    split at hstep
    · cases hstep
      exact ⟨hphase.spelling ‹_›, hstack⟩
    split at hstep
    · exact sound_afterValue (.number (hphase.numeral? ‹_›)) hstack hstep
    · cases hstep
  | word due whole =>
    dsimp only at hstep
    obtain ⟨hdue, hletters, hwhole⟩ := hphase
    split at hstep
    · exact absurd rfl hdue
    · split at hstep
      · cases hstep
        exact ⟨hwhole, hstack⟩
      · cases hstep
    · next hmore =>
      split at hstep
      · cases hstep
        exact ⟨⟨hmore, (List.forall_mem_cons.1 hletters).2, hwhole⟩, hstack⟩
      · cases hstep
  | complete whole => exact sound_afterValue hphase hstack hstep

/-- And so does a whole text. -/
theorem Sound.run {t : Text} (h : r.Sound) (hrun : r.run t = some next) : next.Sound := by
  induction t generalizing r with
  | nil =>
    cases hrun
    exact h
  | cons c t ih =>
    obtain ⟨middle, hstep, hrest⟩ := Option.bind_eq_some_iff.1 hrun
    exact ih (h.step hstep) hrest

/-- What a sound reading ends with is readable. -/
theorem Sound.finish (h : r.Sound) (hfinish : r.finish = some value) :
    value.Readable Json.maxDepth := by
  obtain ⟨hphase, -⟩ := h
  obtain ⟨phase, stack⟩ := r
  unfold Reading.finish at hfinish
  split at hfinish
  case h_1 whole hnil hcomplete =>
    cases hfinish
    cases hnil
    cases hcomplete
    exact hphase
  case h_2 phase reversed hnil hnumber =>
    cases hnil
    cases hnumber
    split at hfinish
    · cases hfinish
      exact .number (hphase.numeral? ‹_›)
    · cases hfinish
  · cases hfinish

end Reading

namespace Json

/-- **What is read is readable**, with room for as many brackets as may be
open at a time. -/
theorem readable_of_read? {t : Text} {value : Json} (h : read? t = some value) :
    value.Readable maxDepth := by
  obtain ⟨last, hrun, hfinish⟩ := Option.bind_eq_some_iff.1 h
  exact (Reading.sound_start.run hrun).finish hfinish

end Json

end ChangeFeed
