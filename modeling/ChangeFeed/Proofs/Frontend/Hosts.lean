import ChangeFeed.Frontend.Client
import ChangeFeed.Proofs.Text.Cutting
import ChangeFeed.Proofs.Text.Trimming
/-!
# Hosts — what is left of the configured frontends

A configured frontend names a host with white space around it, perhaps a scheme
before it and slashes behind it (`NamesHost`). What is asked is what the
frontends name, if that is not empty (`mem_endpoints_iff`). White space is taken
off first and not again, so a host is as clean as its frontend is tidy: white
space right behind the scheme or right before the slashes stays where it is
(`trim_eq_self_iff_isTidy`).
-/


namespace ChangeFeed

/-- The scheme that may stand before a host. -/
def scheme : Text := "http://".toList

/-- **A configured frontend names a host**, which may be empty. The mark before it
is the scheme wherever that stands. -/
inductive NamesHost : Text → Text → Prop where
  | intro {before mark host slashes after : Text} (hbefore : before.isBlank = true)
      (hafter : after.isBlank = true)
      (htrim : Text.trim (mark ++ (host ++ slashes)) = mark ++ (host ++ slashes))
      (hmark : mark = scheme ∨ mark = [] ∧ ∀ rest, host ++ slashes ≠ scheme ++ rest)
      (hslashes : ∀ c ∈ slashes, c = '/') (hlast : host.getLast? ≠ some '/') :
      NamesHost (before ++ (mark ++ (host ++ slashes) ++ after)) host

/-- **No white space is hidden** in a configured frontend: none right behind the
scheme, and none right before the slashes at the end. -/
structure IsTidy (node : Text) : Prop where
  behindScheme : ∀ c rest, node.trim = scheme ++ c :: rest → isSpace c = false
  beforeSlashes : ∀ front c slashes, node.trim = front ++ c :: slashes → slashes ≠ [] →
    (∀ d ∈ slashes, d = '/') → isSpace c = false

variable {node host mark t rest slashes : Text} {nodes : List Text}

/-! ## One frontend -/

/-- The white space at both ends is cut off. -/
theorem trim_eq_iff :
    node.trim = t ↔ (∃ before after : Text, before.isBlank = true ∧ after.isBlank = true ∧
      node = before ++ (t ++ after)) ∧ t.trim = t := by
  rw [Text.trim, Text.trimWhile_eq_iff]
  simp only [Text.isBlank, List.all_eq_true]
  rfl

/-- The scheme is cut off. -/
theorem stripScheme_eq_iff :
    (Text.stripStart? scheme t).getD t = rest ↔
      ∃ mark, t = mark ++ rest ∧ (mark = scheme ∨ mark = [] ∧ ∀ tail, rest ≠ scheme ++ tail) := by
  cases hstrip : Text.stripStart? scheme t with
  | some behind =>
    obtain rfl := Text.stripStart?_eq_some_iff.1 hstrip
    constructor
    · rintro rfl
      exact ⟨scheme, rfl, Or.inl rfl⟩
    · rintro ⟨mark, heq, rfl | ⟨rfl, hnone⟩⟩
      · exact List.append_cancel_left heq
      · exact absurd heq.symm (hnone behind)
  | none =>
    have hnone : ∀ tail, t ≠ scheme ++ tail := by
      rintro tail rfl
      rw [Text.stripStart?_append] at hstrip
      cases hstrip
    constructor
    · rintro rfl
      exact ⟨[], rfl, Or.inr ⟨rfl, hnone⟩⟩
    · rintro ⟨mark, heq, rfl | ⟨rfl, -⟩⟩
      · exact absurd heq (hnone rest)
      · exact heq

/-- **What is left of a frontend is the host that it names.** -/
theorem endpointOf_eq_iff : endpointOf node = host ↔ NamesHost node host := by
  constructor
  · intro h
    obtain ⟨⟨before, after, hbefore, hafter, hnode⟩, htrim⟩ := trim_eq_iff.1 (Eq.refl node.trim)
    obtain ⟨⟨slashes, hslashes, hrest⟩, hlast⟩ := Text.trimEndWhile_char_eq_iff.1 h
    obtain ⟨mark, hcore, hmark⟩ := stripScheme_eq_iff.1 hrest
    rw [hcore] at hnode htrim
    rw [hnode]
    exact .intro hbefore hafter htrim hmark hslashes hlast
  · rintro ⟨hbefore, hafter, htrim, hmark, hslashes, hlast⟩
    have hcore := trim_eq_iff.2 ⟨⟨_, _, hbefore, hafter, rfl⟩, htrim⟩
    have hrest := stripScheme_eq_iff.2 ⟨_, rfl, hmark⟩
    unfold endpointOf
    rw [hcore]
    show Text.trimEndWhile _ ((Text.stripStart? scheme _).getD _) = _
    rw [hrest]
    exact Text.trimEndWhile_char_eq_iff.2 ⟨⟨_, hslashes, rfl⟩, hlast⟩

/-! ## White space in a frontend -/

/-- No white space stands at either end of what is trimmed. -/
theorem trim_eq_self_iff : t.trim = t ↔
    (∀ c, t.head? = some c → isSpace c = false) ∧ ∀ c, t.getLast? = some c → isSpace c = false :=
  Text.trimWhile_eq_self_iff

/-- A text has one part before the slashes at its end. -/
theorem eq_of_append_slashes {front other others : Text} (h : front ++ slashes = other ++ others)
    (hslashes : ∀ c ∈ slashes, c = '/') (hothers : ∀ c ∈ others, c = '/')
    (hfront : front.getLast? ≠ some '/') (hother : other.getLast? ≠ some '/') : front = other := by
  have hone := Text.trimEndWhile_char_eq_iff.2 ⟨⟨slashes, hslashes, rfl⟩, hfront⟩
  have htwo := Text.trimEndWhile_char_eq_iff.2 ⟨⟨others, hothers, h⟩, hother⟩
  exact hone.symm.trans htwo

namespace NamesHost

/-- The parts of a frontend within the white space around it. -/
theorem exists_parts (h : NamesHost node host) :
    ∃ mark slashes, node.trim = mark ++ (host ++ slashes) ∧
      (mark = scheme ∨ mark = [] ∧ ∀ rest, host ++ slashes ≠ scheme ++ rest) ∧
      (∀ c ∈ slashes, c = '/') ∧ host.getLast? ≠ some '/' := by
  obtain ⟨hbefore, hafter, htrim, hmark, hslashes, hlast⟩ := h
  have hcore := trim_eq_iff.2 ⟨⟨_, _, hbefore, hafter, rfl⟩, htrim⟩
  exact ⟨_, _, hcore, hmark, hslashes, hlast⟩

/-- There is no white space in a scheme and slashes. -/
theorem isTidy_of_nil (h : NamesHost node []) : IsTidy node := by
  obtain ⟨mark, slashes, hnode, hmark, hslashes, -⟩ := h.exists_parts
  have hnone : ∀ c ∈ node.trim, isSpace c = false := by
    have hscheme : scheme.all (!isSpace ·) = true := by decide
    intro c hc
    rw [hnode, List.nil_append] at hc
    rcases List.mem_append.1 hc with hmem | hmem
    · rcases hmark with rfl | ⟨rfl, -⟩
      · simpa using List.all_eq_true.1 hscheme c hmem
      · cases hmem
    · rw [hslashes c hmem]
      rfl
  exact ⟨fun c rest hc => hnone c (by simp [hc]), fun front c others hc _ _ =>
    hnone c (by simp [hc])⟩

/-- White space that is hidden in a frontend shows at an end of the host. -/
theorem isTidy (h : NamesHost node host) (hhost : host.trim = host) : IsTidy node := by
  by_cases hne : host = []
  · subst hne
    exact h.isTidy_of_nil
  obtain ⟨mark, slashes, hnode, hmark, hslashes, hlast⟩ := h.exists_parts
  obtain ⟨hfirst, hfinal⟩ := trim_eq_self_iff.1 hhost
  refine ⟨fun c rest hc => ?_, fun front c others hc hothers hall => ?_⟩
  · rw [hnode] at hc
    rcases hmark with rfl | ⟨rfl, hnone⟩
    · refine hfirst c ?_
      have hhead : (host ++ slashes).head? = host.head? := List.head?_append_of_ne_nil host hne
      rw [← hhead, List.append_cancel_left hc, List.head?_cons]
    · exact absurd hc (hnone _)
  · by_contra hspace
    have hslash : c ≠ '/' := by
      rintro rfl
      exact hspace rfl
    have hend : (mark ++ host).getLast? = host.getLast? :=
      List.getLast?_append_of_ne_nil mark hne
    have happend : (mark ++ host) ++ slashes = (front ++ [c]) ++ others := by
      rw [List.append_assoc, ← hnode, hc, List.append_assoc, List.singleton_append]
    have hsame : mark ++ host = front ++ [c] := by
      refine eq_of_append_slashes happend hslashes hall (hend ▸ hlast) ?_
      rw [List.getLast?_concat]
      exact fun heq => hslash (Option.some.inj heq)
    refine hspace (hfinal c ?_)
    rw [← hend, hsame, List.getLast?_concat]

/-- White space at an end of the host was hidden in the frontend. -/
theorem trim_eq_self (h : NamesHost node host) (htidy : IsTidy node) : host.trim = host := by
  obtain ⟨mark, slashes, hnode, hmark, hslashes, -⟩ := h.exists_parts
  obtain ⟨hfront, hback⟩ := trim_eq_self_iff.1 (trim_eq_iff.1 (Eq.refl node.trim)).2
  rw [hnode] at hfront hback
  refine trim_eq_self_iff.2 ⟨fun c hc => ?_, fun c hc => ?_⟩
  · obtain ⟨rest, rfl⟩ := List.head?_eq_some_iff.1 hc
    rcases hmark with rfl | ⟨rfl, -⟩
    · exact htidy.behindScheme c _ hnode
    · exact hfront c rfl
  · by_cases hnil : slashes = []
    · refine hback c ?_
      rw [hnil, List.append_nil, List.getLast?_append, hc, Option.some_or]
    · obtain ⟨front, rfl⟩ := List.getLast?_eq_some_iff.1 hc
      refine htidy.beforeSlashes (mark ++ front) c slashes ?_ hnil hslashes
      rw [hnode, List.append_assoc, List.append_assoc, List.singleton_append]

end NamesHost

/-! ## All frontends -/

/-- **The hosts are what the frontends name**, if that is not empty. -/
theorem mem_endpoints_iff :
    host ∈ endpoints nodes ↔ host ≠ [] ∧ ∃ node ∈ nodes, NamesHost node host := by
  unfold endpoints
  rw [List.mem_filter, List.mem_map, and_comm]
  simp only [endpointOf_eq_iff, Bool.not_eq_true', List.isEmpty_eq_false_iff]

theorem endpoints_eq_nil_iff : endpoints nodes = [] ↔ ∀ node ∈ nodes, NamesHost node [] := by
  unfold endpoints
  rw [List.filter_eq_nil_iff, List.forall_mem_map]
  simp only [Bool.not_eq_true', List.isEmpty_eq_false_iff, not_not, endpointOf_eq_iff]

theorem someEndpoints_eq_error_iff :
    someEndpoints nodes = .error .noEndpoint ↔ endpoints nodes = [] := by
  unfold someEndpoints
  split
  · next hnil => simp [hnil]
  · next hcons => simp [hcons]

theorem someEndpoints_eq_ok_iff {hosts : List Text} :
    someEndpoints nodes = .ok hosts ↔ endpoints nodes = hosts ∧ hosts ≠ [] := by
  unfold someEndpoints
  split
  · next hnil =>
    rw [hnil]
    constructor
    · intro h
      cases h
    · rintro ⟨rfl, hne⟩
      exact absurd rfl hne
  · next first rest hcons =>
    rw [hcons, Except.ok.injEq]
    constructor
    · rintro rfl
      exact ⟨rfl, List.cons_ne_nil first rest⟩
    · exact And.left

/-- **A clean host**: not blank, trimmed, and without a slash at its end. -/
def IsCleanHost (host : Text) : Prop :=
  host.isBlank = false ∧ host.trim = host ∧ host.getLast? ≠ some '/'

namespace NamesHost

/-- A tidy frontend that names a blank host names an empty one. -/
theorem isBlank_iff (h : NamesHost node host) (htidy : IsTidy node) :
    host.isBlank = true ↔ host = [] := by
  rw [← Text.trim_eq_nil_iff, h.trim_eq_self htidy]

/-- **A host is clean exactly if its frontend is tidy.** -/
theorem isCleanHost_iff (h : NamesHost node host) (hne : host ≠ []) :
    IsCleanHost host ↔ IsTidy node := by
  constructor
  · exact fun hclean => h.isTidy hclean.2.1
  · intro htidy
    obtain ⟨_, _, -, -, -, hlast⟩ := h.exists_parts
    refine ⟨?_, h.trim_eq_self htidy, hlast⟩
    rw [← Bool.not_eq_true, h.isBlank_iff htidy]
    exact hne

end NamesHost

/-- **Which hosts may be asked.** There is none exactly if every frontend names an
empty host, which is a blank one if they are tidy. Else they are hosts that the
frontends name. No slash is at the end of one, and it is clean exactly if its
frontend is tidy. The address of each request goes on with a path behind it. -/
theorem hosts_of_frontends (nodes : List Text) :
    (someEndpoints nodes = .error .noEndpoint ↔ ∀ node ∈ nodes, NamesHost node []) ∧
      ((∀ node ∈ nodes, IsTidy node) → (someEndpoints nodes = .error .noEndpoint ↔
        ∀ node ∈ nodes, ∃ host, NamesHost node host ∧ host.isBlank = true)) ∧
      ∀ hosts, someEndpoints nodes = .ok hosts → ∀ host ∈ hosts,
        host ≠ [] ∧ host.getLast? ≠ some '/' ∧
        (∃ node ∈ nodes, NamesHost node host ∧ (IsCleanHost host ↔ IsTidy node)) ∧
        ∀ database table,
          Request.url host (checkPath database table) = scheme ++ host ++
            ("/api/enable_light_schema_change/".toList ++ database ++ '/' :: table) ∧
          Request.url host (executePath database) = scheme ++ host ++
            ("/api/query/default_cluster/".toList ++ database) := by
  have hnone : someEndpoints nodes = .error .noEndpoint ↔ ∀ node ∈ nodes, NamesHost node [] :=
    someEndpoints_eq_error_iff.trans endpoints_eq_nil_iff
  refine ⟨hnone, fun htidy => hnone.trans ?_, fun hosts hok host hmem => ?_⟩
  · refine forall₂_congr fun node hnode => ⟨fun h => ⟨[], h, rfl⟩, ?_⟩
    rintro ⟨host, h, hblank⟩
    rwa [(h.isBlank_iff (htidy node hnode)).1 hblank] at h
  · obtain ⟨rfl, -⟩ := someEndpoints_eq_ok_iff.1 hok
    obtain ⟨hne, node, hnode, hnames⟩ := mem_endpoints_iff.1 hmem
    obtain ⟨_, _, -, -, -, hlast⟩ := hnames.exists_parts
    exact ⟨hne, hlast, ⟨node, hnode, hnames, hnames.isCleanHost_iff hne⟩,
      fun _ _ => ⟨rfl, rfl⟩⟩

/-- A frontend with all that is cut off, and one that names no host. -/
theorem hosts_of_frontends_slash :
    let nodes := [" http://fe1:8030/ ".toList, "\t//".toList]
    someEndpoints nodes = .ok ["fe1:8030".toList] ∧ (∀ node ∈ nodes, IsTidy node) ∧
      IsCleanHost "fe1:8030".toList ∧ (∃ node ∈ nodes, NamesHost node "fe1:8030".toList) ∧
      ¬ ∀ node ∈ nodes, ∃ host, NamesHost node host ∧ host.isBlank = true := by
  intro nodes
  have hok : someEndpoints nodes = .ok ["fe1:8030".toList] := by decide
  have htidy : ∀ node ∈ nodes, IsTidy node := by
    have hall : ∀ node ∈ nodes, (endpointOf node).trim = endpointOf node := by decide
    exact fun node hnode => (endpointOf_eq_iff.1 rfl).isTidy (hall node hnode)
  obtain ⟨-, hblank, hhosts⟩ := hosts_of_frontends nodes
  obtain ⟨-, -, ⟨node, hnode, hnames, hclean⟩, -⟩ := hhosts _ hok _ (List.mem_singleton_self _)
  refine ⟨hok, htidy, hclean.2 (htidy node hnode), ⟨node, hnode, hnames⟩, fun hall => ?_⟩
  rw [(hblank htidy).2 hall] at hok
  cases hok

/-- **What is hidden stays**: a blank host is taken for one to ask, and others keep
white space at an end. -/
theorem not_isCleanHost_of_hidden :
    (someEndpoints ["http:// /".toList] = .ok [[' ']] ∧ NamesHost "http:// /".toList [' '] ∧
        Text.isBlank [' '] = true) ∧
      (someEndpoints ["http:// fe:8030".toList] = .ok [" fe:8030".toList] ∧
        ¬ IsCleanHost " fe:8030".toList) ∧
      someEndpoints ["fe:8030 /".toList] = .ok ["fe:8030 ".toList] ∧
        ¬ IsCleanHost "fe:8030 ".toList := by
  have hspaced : ∀ host ∈ [" fe:8030".toList, "fe:8030 ".toList], ¬ IsCleanHost host := by
    have htrim : ∀ host ∈ [" fe:8030".toList, "fe:8030 ".toList], Text.trim host ≠ host := by
      decide
    exact fun host hmem hclean => htrim host hmem hclean.2.1
  refine ⟨⟨by decide, endpointOf_eq_iff.1 (by decide), by decide⟩, ⟨by decide, ?_⟩, by decide, ?_⟩
  · exact hspaced _ (by decide)
  · exact hspaced _ (by decide)

end ChangeFeed
