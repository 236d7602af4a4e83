import ChangeFeed.Frontend.Client
import ChangeFeed.Frontend.Wire
import ChangeFeed.Proofs.Text.Cutting
import ChangeFeed.Proofs.Text.Digits
import ChangeFeed.Proofs.Text.Trimming
/-!
# Plain addresses — what is asked for is what was written

The names in an address may hold anything, and much of it is not asked for as
it was written. Where a frontend is a host, perhaps with the number of a
service and with segments behind it, and all that stands in segments is
unreserved, nothing of that can happen: `IsPlainHost.parse?_url` reads the
host, the service and the whole path off the address again. Segments of dots
alone are left out, since they are followed.
-/


namespace ChangeFeed

namespace Url

/-- **Unreserved characters** stand for themselves wherever they are. -/
def isUnreserved (c : Char) : Bool := c.isAlphanum || "-._~".toList.contains c

/-- **A plain segment** of a path. -/
structure IsSegment (t : Text) : Prop where
  unreserved : ∀ c ∈ t, isUnreserved c = true
  ne_here : t ≠ ".".toList
  ne_back : t ≠ "..".toList

/-- **A plain host**, with the number of its service or without. -/
inductive IsAuthority : Text → Address → Prop where
  | host {host : Text} (hne : host ≠ []) (h : ∀ c ∈ host, isUnreserved c = true) :
      IsAuthority host ⟨host, Address.defaultService⟩
  | service {host : Text} {service : Nat} (hne : host ≠ [])
      (h : ∀ c ∈ host, isUnreserved c = true) (hservice : service < Address.serviceBound) :
      IsAuthority (host ++ ':' :: Text.ofNatural service) ⟨host, service⟩

/-- **A plain frontend**: a host, and what all paths there begin with. -/
inductive IsPlainHost (address : Address) : Text → Text → Prop where
  | intro {authority : Text} {segments : List Text} (hauthority : IsAuthority authority address)
      (h : ∀ segment ∈ segments, IsSegment segment) :
      IsPlainHost address (authority ++ slashed segments) (slashed segments)

/-! ## Characters -/

variable {c : Char} {t : Text}

theorem toNat_lt_of_isAlphanum (h : c.isAlphanum = true) : c.toNat < 128 := by
  -- each of the three ranges has a last character
  have hlast : ∀ {d : Char}, c.val ≤ d.val → d.toNat < 128 → c.toNat < 128 := fun hle =>
    Nat.lt_of_le_of_lt (UInt32.le_iff_toNat_le.1 hle)
  rcases Bool.or_eq_true_iff.1 h with halpha | hdigit
  · rcases Bool.or_eq_true_iff.1 halpha with hupper | hlower
    · exact @hlast 'Z' (of_decide_eq_true hupper).2 (by decide)
    · exact @hlast 'z' (of_decide_eq_true (Bool.and_eq_true_iff.1 hlower).2) (by decide)
  · exact @hlast '9' (of_decide_eq_true (Bool.and_eq_true_iff.1 hdigit).2) (by decide)

theorem toNat_lt_of_isUnreserved (h : isUnreserved c = true) : c.toNat < 128 := by
  rw [isUnreserved, Bool.or_eq_true, List.contains_iff_mem] at h
  rcases h with h | h
  · exact toNat_lt_of_isAlphanum h
  · have hmarks : "-._~".toList.all (·.toNat < 128) = true := by decide
    exact of_decide_eq_true (List.all_eq_true.1 hmarks c h)

/-- **A character that no rule is about.** -/
structure IsInert (c : Char) : Prop where
  visible : 0x20 < c.toNat
  inside : endsAuthority c = false
  unescaped : isEscapedInPath c = false
  unbarred : Address.isBarred c = false
  unmarked : c ∉ ['@', ':', '[']
  ne_percent : c.toLower ≠ '%'
  eq_dot : c.toLower = '.' → c = '.'

theorem isInert_of_isUnreserved (h : isUnreserved c = true) : IsInert c := by
  have htable : ∀ n < 128, isUnreserved (Char.ofNat n) = true →
      0x20 < (Char.ofNat n).toNat ∧ endsAuthority (Char.ofNat n) = false ∧
        isEscapedInPath (Char.ofNat n) = false ∧ Address.isBarred (Char.ofNat n) = false ∧
        Char.ofNat n ∉ ['@', ':', '['] ∧ (Char.ofNat n).toLower ≠ '%' ∧
        ((Char.ofNat n).toLower = '.' → Char.ofNat n = '.') := by decide
  have hc := htable c.toNat (toNat_lt_of_isUnreserved h)
  rw [Char.ofNat_toNat] at hc
  obtain ⟨hvisible, hinside, hunescaped, hunbarred, hunmarked, hpercent, hdot⟩ := hc h
  exact ⟨hvisible, hinside, hunescaped, hunbarred, hunmarked, hpercent, hdot⟩

/-- It ends no path, and it is no slash. -/
theorem endsPath_of_isUnreserved (h : isUnreserved c = true) :
    endsPath c = false ∧ isSlash c = false :=
  (Bool.or_eq_false_iff.1 (isInert_of_isUnreserved h).inside).symm

/-! ## Paths -/

/-- Where there is no dot nothing has to be said of dots. -/
theorem isSegment_of_all (h : (t.all fun c => isUnreserved c && c != '.') = true) : IsSegment t := by
  have hall : ∀ c ∈ t, isUnreserved c = true ∧ c ≠ '.' := by simpa using h
  have hdots : ∀ dots : Text, '.' ∈ dots → t ≠ dots := by
    rintro dots hdot rfl
    exact (hall '.' hdot).2 rfl
  exact ⟨fun c hc => (hall c hc).1, hdots _ (by decide), hdots _ (by decide)⟩

/-- A plain segment is no spelling of dots but by dots. -/
theorem IsSegment.map_toLower_ne {dots : Text} (h : IsSegment t)
    (hdots : '%' ∈ dots ∨ t ≠ dots ∧ dots.all (· == '.') = true) : t.map Char.toLower ≠ dots := by
  rintro rfl
  rcases hdots with hpercent | ⟨hne, hall⟩
  · obtain ⟨c, hc, heq⟩ := List.mem_map.1 hpercent
    exact (isInert_of_isUnreserved (h.unreserved c hc)).ne_percent heq
  · have hsame : ∀ c ∈ t, c.toLower = c := by
      intro c hc
      have hdot := eq_of_beq (List.all_eq_true.1 hall _ (List.mem_map_of_mem hc))
      rw [hdot, (isInert_of_isUnreserved (h.unreserved c hc)).eq_dot hdot]
    exact hne ((List.map_congr_left hsame).trans (List.map_id t)).symm

theorem IsSegment.isHere_eq_false (h : IsSegment t) : isHere t = false := by
  rw [isHere, ← Bool.not_eq_true, List.contains_iff_mem]
  intro hmem
  simp only [List.mem_cons, List.not_mem_nil, or_false] at hmem
  rcases hmem with heq | heq
  · exact h.map_toLower_ne (Or.inr ⟨h.ne_here, by decide⟩) heq
  · exact h.map_toLower_ne (Or.inl (by decide)) heq

theorem IsSegment.isBack_eq_false (h : IsSegment t) : isBack t = false := by
  rw [isBack, ← Bool.not_eq_true, List.contains_iff_mem]
  intro hmem
  simp only [List.mem_cons, List.not_mem_nil, or_false] at hmem
  rcases hmem with heq | heq | heq | heq
  · exact h.map_toLower_ne (Or.inr ⟨h.ne_back, by decide⟩) heq
  all_goals exact h.map_toLower_ne (Or.inl (by decide)) heq

/-- Nothing in it is escaped. -/
theorem IsSegment.escape_eq_self (h : IsSegment t) : escape isEscapedInPath t = t := by
  have hkept : ∀ c ∈ t, (if isEscapedInPath c then (Text.bytes [c]).flatMap escapedByte else [c]) =
      [c] := fun c hc => by rw [(isInert_of_isUnreserved (h.unreserved c hc)).unescaped, if_neg nofun]
  rw [escape, List.flatMap_congr hkept, List.flatMap_singleton']

variable {segments base : List Text}

/-- Plain segments are taken one after the other. -/
theorem foldl_follow (h : ∀ segment ∈ segments, IsSegment segment) (taken : List Text) :
    segments.foldl follow taken = segments.reverse ++ taken := by
  induction segments generalizing taken with
  | nil => rfl
  | cons segment rest ih =>
    obtain ⟨hsegment, hrest⟩ := List.forall_mem_cons.1 h
    have hfollow : follow taken segment = segment :: taken := by
      rw [follow, hsegment.isBack_eq_false, hsegment.isHere_eq_false, hsegment.escape_eq_self]
      rfl
    rw [List.foldl_cons, hfollow, ih hrest, List.reverse_cons, List.append_assoc]
    rfl

/-- **Plain segments lead to themselves.** -/
theorem walk_plain (h : ∀ segment ∈ segments, IsSegment segment) :
    walk segments = slashed segments := by
  have hfolder : (segments.getLast?.any fun last => isBack last || isHere last) = false := by
    cases hlast : segments.getLast? with
    | none => rfl
    | some last =>
      have hplain := h last (List.mem_of_getLast? hlast)
      rw [Option.any_some, hplain.isBack_eq_false, hplain.isHere_eq_false, Bool.or_false]
  rw [walk, hfolder, foldl_follow h, List.append_nil]
  simp only [Bool.false_eq_true, if_false, List.reverse_reverse]

/-- What stands in segments with slashes before them. -/
theorem mem_slashed (h : ∀ segment ∈ segments, IsSegment segment)
    (hc : c ∈ slashed segments) : c = '/' ∨ isUnreserved c = true := by
  obtain ⟨segment, hsegment, hmem⟩ := List.mem_flatMap.1 hc
  exact (List.mem_cons.1 hmem).imp id ((h segment hsegment).unreserved c)

/-- None of it is white space or ends the path. -/
theorem inside_of_mem_slashed (h : ∀ segment ∈ segments, IsSegment segment)
    (hc : c ∈ slashed segments) : 0x20 < c.toNat ∧ endsPath c = false := by
  rcases mem_slashed h hc with rfl | hplain
  · decide
  · exact ⟨(isInert_of_isUnreserved hplain).visible, (endsPath_of_isUnreserved hplain).1⟩

/-- They are found again between the slashes. -/
theorem segments_slashed (hne : segments ≠ []) (h : ∀ segment ∈ segments, IsSegment segment) :
    Url.segments (slashed segments) = segments := by
  have hsame : ((slashed segments).map fun c => if isSlash c then '/' else c) =
      slashed segments := by
    refine (List.map_congr_left fun c hc => ?_).trans (List.map_id _)
    rcases mem_slashed h hc with rfl | hplain
    · rfl
    · rw [(endsPath_of_isUnreserved hplain).2, if_neg nofun, id]
  have hslash : ∀ segment ∈ segments, '/' ∉ segment := by
    intro segment hsegment hmem
    have hinside := (isInert_of_isUnreserved ((h segment hsegment).unreserved _ hmem)).inside
    cases hinside
  obtain ⟨first, rest, rfl⟩ := List.exists_cons_of_ne_nil hne
  have hjoined : (slashed (first :: rest)).tail = Text.joined ['/'] (first :: rest) :=
    (Text.joined_cons_eq_flatMap ['/'] first rest).symm
  rw [Url.segments, hsame, hjoined, Text.splitAll_joined hne hslash]

/-! ## Hosts -/

variable {authority : Text} {address : Address}

theorem IsAuthority.mem (h : IsAuthority authority address) (hc : c ∈ authority) :
    c = ':' ∨ isUnreserved c = true := by
  have hdigit : ∀ d : Char, d.isDigit = true → isUnreserved d = true := by
    intro d hd
    simp [isUnreserved, Char.isAlphanum, hd]
  cases h with
  | host _ h => exact Or.inr (h c hc)
  | service _ h _ =>
    rcases List.mem_append.1 hc with hhost | hservice
    · exact Or.inr (h c hhost)
    · exact (List.mem_cons.1 hservice).imp id fun hmem =>
        hdigit c (Text.isDigit_of_mem_ofNatural hmem)

/-- None of it is white space, ends the host or stands behind a user. -/
theorem IsAuthority.inside (h : IsAuthority authority address) (hc : c ∈ authority) :
    0x20 < c.toNat ∧ endsAuthority c = false ∧ c ≠ '@' := by
  rcases h.mem hc with rfl | hplain
  · decide
  · have hinert := isInert_of_isUnreserved hplain
    refine ⟨hinert.visible, hinert.inside, ?_⟩
    rintro rfl
    exact hinert.unmarked (by decide)

/-- It begins with a character of its name. -/
theorem IsAuthority.exists_cons (h : IsAuthority authority address) :
    ∃ first rest, authority = first :: rest ∧ isUnreserved first = true := by
  cases h with
  | host hne h =>
    obtain ⟨first, rest, rfl⟩ := List.exists_cons_of_ne_nil hne
    exact ⟨first, rest, rfl, h first List.mem_cons_self⟩
  | service hne h _ =>
    obtain ⟨first, rest, heq⟩ := List.exists_cons_of_ne_nil hne
    rw [heq]
    exact ⟨first, _, rfl, h first (heq ▸ List.mem_cons_self)⟩

/-- The number of a service is read back. -/
theorem service?_ofNatural {service : Nat} (h : service < Address.serviceBound) :
    Address.service? (':' :: Text.ofNatural service) = some service := by
  have hread : Text.readNatural 10 Address.serviceBound (Text.ofNatural service) = .ok service :=
    (Text.readNatural_eq_ok_iff (by decide)).2 ⟨Text.writesNatural_ofNatural service, h⟩
  have hdigits : (Text.ofNatural service).all Char.isDigit = true :=
    List.all_eq_true.2 fun c hc => Text.isDigit_of_mem_ofNatural hc
  have hne : Text.ofNatural service ≠ [] := Nat.toDigits_ne_nil
  unfold Address.service?
  split
  · next heq => cases heq
  · next heq => exact absurd (List.cons.inj heq).2 hne
  · next digits _ heq =>
    obtain ⟨-, rfl⟩ := List.cons.inj heq
    rw [if_pos hdigits, hread]
    rfl
  · next hnone => exact absurd rfl (hnone _)

/-- A plain name is read, and what names the service behind it. -/
theorem parse?_append {host behind : Text} {service : Nat} (hne : host ≠ [])
    (h : ∀ c ∈ host, isUnreserved c = true) (hbehind : behind.head?.all (· == ':') = true)
    (hservice : Address.service? behind = some service) :
    Address.parse? (host ++ behind) = some ⟨host, service⟩ := by
  have hname : ∀ c ∈ host, (c != ':') = true := by
    intro c hc
    have hunmarked := (isInert_of_isUnreserved (h c hc)).unmarked
    rw [bne_iff_ne]
    rintro rfl
    exact hunmarked (by decide)
  have hbarred : host.any Address.isBarred = false :=
    List.any_eq_false.2 fun c hc => by
      rw [(isInert_of_isUnreserved (h c hc)).unbarred]
      exact Bool.false_ne_true
  have hstop : behind.takeWhile (· != ':') = [] ∧ behind.dropWhile (· != ':') = behind := by
    cases behind with
    | nil => exact ⟨rfl, rfl⟩
    | cons c rest =>
      have hc : c = ':' := by simpa using hbehind
      subst hc
      exact ⟨rfl, rfl⟩
  unfold Address.parse?
  split
  · next rest heq =>
    obtain ⟨first, tail, rfl⟩ := List.exists_cons_of_ne_nil hne
    obtain ⟨rfl, -⟩ := List.cons.inj heq
    exact absurd (h '[' List.mem_cons_self) (by decide)
  · rw [List.takeWhile_append_of_pos hname, List.dropWhile_append_of_pos hname, hstop.1, hstop.2,
      hservice, List.append_nil]
    simp [hne, hbarred]

/-- **The address of a plain host is read off it.** -/
theorem IsAuthority.parse?_eq (h : IsAuthority authority address) :
    Address.parse? authority = some address := by
  cases h with
  | host hne h =>
    have hparse := @parse?_append authority [] _ hne h rfl rfl
    rwa [List.append_nil] at hparse
  | service hne h hservice => exact parse?_append hne h rfl (service?_ofNatural hservice)

/-! ## Whole addresses -/

/-- Nothing is cut off an address, or out of it, that has no white space. -/
theorem tidied_eq_self (h : ∀ c ∈ t, 0x20 < c.toNat) : tidied t = t := by
  have hkept : Text.trimWhile (fun c => c.toNat ≤ 0x20) t = t :=
    Text.trimWhile_eq_self fun c hc => decide_eq_false (Nat.not_le.2 (h c hc))
  rw [tidied, hkept, List.filter_eq_self]
  intro c hc
  have hvisible := h c hc
  simp only [Bool.not_eq_true', Bool.or_eq_false_iff, beq_eq_false_iff_ne]
  refine ⟨⟨?_, ?_⟩, ?_⟩
  all_goals
    rintro rfl
    exact absurd hvisible (by decide)

theorem behindUser_eq_self (h : '@' ∉ t) : behindUser t = t := by
  have hall : ∀ c ∈ t.reverse, (c != '@') = true := by
    intro c hc
    rw [bne_iff_ne]
    rintro rfl
    exact h (List.mem_reverse.1 hc)
  rw [behindUser, List.takeWhile_eq_self_iff.2 hall, List.reverse_reverse]

/-- No white space is found in a plain address. -/
theorem tidied_plain (hauthority : IsAuthority authority address)
    (hsegments : ∀ segment ∈ segments, IsSegment segment) :
    tidied ("http://".toList ++ (authority ++ slashed segments)) =
      "http:".toList ++ ("//".toList ++ (authority ++ slashed segments)) := by
  refine (tidied_eq_self fun c hc => ?_).trans rfl
  rcases List.mem_append.1 hc with hscheme | hrest
  · have hvisible : "http://".toList.all (0x20 < ·.toNat) = true := by decide
    exact of_decide_eq_true (List.all_eq_true.1 hvisible c hscheme)
  · rcases List.mem_append.1 hrest with hhost | hslashed
    · exact (hauthority.inside hhost).1
    · exact (inside_of_mem_slashed hsegments hslashed).1

/-- The slashes in front of a plain host are passed over, and no others. -/
theorem IsAuthority.dropWhile_isSlash (h : IsAuthority authority address) (rest : Text) :
    ("//".toList ++ (authority ++ rest)).dropWhile isSlash = authority ++ rest := by
  obtain ⟨first, tail, rfl, hfirst⟩ := h.exists_cons
  have hslash : ¬isSlash first = true := by
    rw [(endsPath_of_isUnreserved hfirst).2]
    exact Bool.false_ne_true
  show ('/' :: '/' :: first :: (tail ++ rest)).dropWhile isSlash = _
  rw [List.dropWhile_cons_of_pos rfl, List.dropWhile_cons_of_pos rfl,
    List.dropWhile_cons_of_neg hslash]
  rfl

/-- **A plain host with plain segments behind it** is read as what it is. -/
theorem parse?_plain (hauthority : IsAuthority authority address) (hne : segments ≠ [])
    (hsegments : ∀ segment ∈ segments, IsSegment segment) :
    parse? ("http://".toList ++ (authority ++ slashed segments)) =
      some ⟨address, slashed segments, none⟩ := by
  have hinside : ∀ c ∈ authority, (!endsAuthority c) = true := by
    intro c hc
    rw [(hauthority.inside hc).2.1]
    rfl
  have huser : '@' ∉ authority := fun hmem => (hauthority.inside hmem).2.2 rfl
  -- the host ends at the first slash, and the path ends with the address
  have hstop : (slashed segments).takeWhile (!endsAuthority ·) = [] ∧
      (slashed segments).dropWhile (!endsAuthority ·) = slashed segments := by
    obtain ⟨first, rest, rfl⟩ := List.exists_cons_of_ne_nil hne
    exact ⟨rfl, rfl⟩
  have hpath : ∀ c ∈ slashed segments, (!endsPath c) = true := by
    intro c hc
    rw [(inside_of_mem_slashed hsegments hc).2]
    rfl
  have hends : (slashed segments).takeWhile (!endsPath ·) = slashed segments :=
    List.takeWhile_eq_self_iff.2 hpath
  have hnone : (slashed segments).dropWhile (!endsPath ·) = [] := List.dropWhile_eq_nil_iff.2 hpath
  simp only [parse?, tidied_plain hauthority hsegments, Text.stripStart?_append,
    hauthority.dropWhile_isSlash, Option.bind_eq_bind, Option.bind_some,
    List.takeWhile_append_of_pos hinside, List.dropWhile_append_of_pos hinside, hstop.1, hstop.2,
    List.append_nil, behindUser_eq_self huser, hauthority.parse?_eq, hends, hnone,
    segments_slashed hne hsegments, walk_plain hsegments]
  rfl

/-- **What is asked for at a plain frontend** is what was written, behind
what all of its paths begin with. -/
theorem IsPlainHost.parse?_url {host start : Text} (h : IsPlainHost address host start)
    (hne : segments ≠ []) (hsegments : ∀ segment ∈ segments, IsSegment segment) :
    parse? (Request.url host (slashed segments)) =
      some ⟨address, start ++ slashed segments, none⟩ := by
  obtain @⟨authority, front, hauthority, hfront⟩ := h
  have hall : slashed front ++ slashed segments = slashed (front ++ segments) :=
    List.flatMap_append.symm
  have hassoc : ∀ scheme : Text, scheme ++ (authority ++ slashed front) ++ slashed segments =
      scheme ++ (authority ++ slashed (front ++ segments)) := by
    intro scheme
    rw [List.append_assoc, List.append_assoc, hall]
  have hplain : ∀ segment ∈ front ++ segments, IsSegment segment :=
    List.forall_mem_append.2 ⟨hfront, hsegments⟩
  have hread := parse?_plain hauthority (List.append_ne_nil_of_right_ne_nil front hne) hplain
  rw [← hassoc, ← hall] at hread
  exact hread

variable {host start database table : Text}

/-- The check at a plain frontend asks for its path. -/
theorem IsPlainHost.parse?_checkPath (h : IsPlainHost address host start)
    (hdatabase : IsSegment database) (htable : IsSegment table) :
    parse? (Request.url host (checkPath database table)) =
      some ⟨address, start ++ checkPath database table, none⟩ := by
  have hpath : checkPath database (table ++ []) =
      slashed ["api".toList, "enable_light_schema_change".toList, database, table] := rfl
  rw [List.append_nil] at hpath
  rw [hpath]
  refine h.parse?_url (List.cons_ne_nil _ _) ?_
  simp only [List.forall_mem_cons]
  exact ⟨isSegment_of_all (by decide), isSegment_of_all (by decide), hdatabase, htable,
    nofun⟩

/-- And so does the execution. -/
theorem IsPlainHost.parse?_executePath (h : IsPlainHost address host start)
    (hdatabase : IsSegment database) :
    parse? (Request.url host (executePath database)) =
      some ⟨address, start ++ executePath database, none⟩ := by
  have hpath : executePath (database ++ []) =
      slashed ["api".toList, "query".toList, "default_cluster".toList, database] := rfl
  rw [List.append_nil] at hpath
  rw [hpath]
  refine h.parse?_url (List.cons_ne_nil _ _) ?_
  simp only [List.forall_mem_cons]
  exact ⟨isSegment_of_all (by decide), isSegment_of_all (by decide),
    isSegment_of_all (by decide), hdatabase, nofun⟩

-- The rest of a table's name is lost where it is not plain, behind a frontend that is.
example : (parse? (Request.url "lb:8080/doris".toList (checkPath "ods".toList "t#1".toList))).map
    Url.path = some "/doris/api/enable_light_schema_change/ods/t".toList := by decide +kernel

end Url

end ChangeFeed
