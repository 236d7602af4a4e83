import ChangeFeed.Config.Mapping
import ChangeFeed.Config.Options
import ChangeFeed.Proofs.Result
import ChangeFeed.Proofs.Text.Cutting
import ChangeFeed.Proofs.Text.Trimming
/-!
# Precedence — which of the options says where a table goes

Three options may name a target for a table. `SerializerOptions.GoesTo` says
which of them counts: the fixed target unless it is blank, then the last mapping
entry for the table, then the mapping file. `GivesMap` is the file's part, and
`WritesEntry` what a mapping entry is written as. The routing of the options is
exactly that (`target?_eq_iff`), because entries are set one after the other
over the file's and the last of an identity stays (`find?_putAll_of_last`).
-/


namespace ChangeFeed

namespace TargetMap

variable {map : TargetMap} {entries earlier later : List (Text × Text)} {source target : Text}

/-- Entries for other identities change nothing. -/
theorem find?_putAll_of_forall_ne (h : ∀ entry ∈ entries, entry.1 ≠ source) :
    (map.putAll entries).find? source = map.find? source := by
  induction entries generalizing map with
  | nil => rfl
  | cons entry rest ih =>
    obtain ⟨hne, hrest⟩ := List.forall_mem_cons.1 h
    show ((map.put entry.1 entry.2).putAll rest).find? source = _
    rw [ih hrest, find?_put, if_neg hne]

/-- **The last entry of an identity stays.** -/
theorem find?_putAll_of_last (h : ∀ entry ∈ later, entry.1 ≠ source) :
    (map.putAll (earlier ++ (source, target) :: later)).find? source = some target := by
  have hsplit : map.putAll (earlier ++ (source, target) :: later) =
      ((map.putAll earlier).put source target).putAll later := List.foldl_append
  rw [hsplit, find?_putAll_of_forall_ne h, find?_put, if_pos rfl]

/-- An identity has no entry, or a last one. -/
theorem forall_ne_or_exists_last (entries : List (Text × Text)) (source : Text) :
    (∀ entry ∈ entries, entry.1 ≠ source) ∨ ∃ earlier target later,
      entries = earlier ++ (source, target) :: later ∧ ∀ entry ∈ later, entry.1 ≠ source := by
  induction entries with
  | nil => exact Or.inl (List.forall_mem_nil _)
  | cons entry rest ih =>
    rcases ih with hnone | ⟨earlier, target, later, rfl, hlater⟩
    · by_cases hentry : entry.1 = source
      · exact Or.inr ⟨[], entry.2, rest, by rw [← hentry, List.nil_append], hnone⟩
      · exact Or.inl (List.forall_mem_cons.2 ⟨hentry, hnone⟩)
    · exact Or.inr ⟨entry :: earlier, target, later, rfl, hlater⟩

end TargetMap

namespace SerializerOptions

/-- **The map of the mapping file**: what is read under the path is a map of
identities to targets. Where no file is named it has none. -/
inductive GivesMap (options : SerializerOptions) (read : Text → Except FileFault Bytes) :
    (Text → Option Text) → Prop where
  | unnamed (hfile : options.mappingFile = none) : GivesMap options read fun _ => none
  | named {path : Text} {map : TargetMap} (hfile : options.mappingFile = some path)
      (hmap : MappingFile.decode path (read path) = .ok map) : GivesMap options read map.find?

/-- No fixed target, or a blank one. -/
def HasNoFixedTarget (options : SerializerOptions) : Prop :=
  ∀ target, options.tableIdentifier = some target → target.isBlank = true

/-- **Where an identity goes**, given the map of the mapping file. -/
inductive GoesTo (options : SerializerOptions) (file : Text → Option Text) (identity : Text) :
    Option Text → Prop where
  /-- The fixed target is for every identity. -/
  | fixed {target : Text} (htarget : options.tableIdentifier = some target)
      (hblank : target.isBlank = false) : GoesTo options file identity (some target)
  | blank (hfixed : options.HasNoFixedTarget) (hidentity : identity.isBlank = true) :
      GoesTo options file identity none
  /-- Of several mapping entries the last one counts. -/
  | entry {earlier later : List (Text × Text)} {target : Text} (hfixed : options.HasNoFixedTarget)
      (hidentity : identity.isBlank = false)
      (hentries : options.mappings = earlier ++ (identity, target) :: later)
      (hlast : ∀ entry ∈ later, entry.1 ≠ identity) : GoesTo options file identity (some target)
  | file (hfixed : options.HasNoFixedTarget) (hidentity : identity.isBlank = false)
      (hentries : ∀ entry ∈ options.mappings, entry.1 ≠ identity) :
      GoesTo options file identity (file identity)

variable {options : SerializerOptions} {read : Text → Except FileFault Bytes}
variable {file : Text → Option Text} {map : TargetMap} {identity : Text} {answer : Option Text}

/-- The map of the mapping file is what the entries are set over. -/
theorem GivesMap.exists_fileMap (h : options.GivesMap read file) :
    ∃ map : TargetMap, options.fileMap (m := Id) read = .ok map ∧ file = map.find? := by
  unfold fileMap
  cases h with
  | unnamed hfile => exact ⟨[], by rw [hfile]; rfl, rfl⟩
  | @named path map hfile hmap => exact ⟨map, by rw [hfile]; exact hmap, rfl⟩

theorem HasNoFixedTarget.fixed_eq_none (h : options.HasNoFixedTarget) :
    (options.routing map).fixed = none := by
  show options.tableIdentifier.bind Text.unlessBlank = none
  cases htarget : options.tableIdentifier with
  | none => rfl
  | some target => exact if_pos (h target htarget)

/-- Where an identity goes is its target. -/
theorem GoesTo.target?_eq (h : options.GoesTo map.find? identity answer) :
    (options.routing map).target? identity = answer := by
  unfold Routing.target?
  cases h with
  | @fixed target htarget hblank =>
    have hfixed : (options.routing map).fixed = some target := by
      show options.tableIdentifier.bind Text.unlessBlank = _
      rw [htarget, Option.bind_some, Text.unlessBlank, if_neg (by simp [hblank])]
    rw [hfixed]
  | blank hfixed hidentity => rw [hfixed.fixed_eq_none, hidentity, if_pos rfl]
  | entry hfixed hidentity hentries hlast =>
    simp only [hfixed.fixed_eq_none, hidentity]
    show (map.putAll options.mappings).find? identity = _
    rw [hentries, TargetMap.find?_putAll_of_last hlast]
  | file hfixed hidentity hentries =>
    simp only [hfixed.fixed_eq_none, hidentity]
    exact TargetMap.find?_putAll_of_forall_ne hentries

/-- Every identity goes somewhere, or nowhere. -/
theorem exists_goesTo (options : SerializerOptions) (file : Text → Option Text)
    (identity : Text) : ∃ answer, options.GoesTo file identity answer := by
  by_cases hfixed : options.HasNoFixedTarget
  · cases hidentity : identity.isBlank with
    | true => exact ⟨none, .blank hfixed hidentity⟩
    | false =>
      rcases TargetMap.forall_ne_or_exists_last options.mappings identity with
        hentries | ⟨earlier, target, later, hentries, hlast⟩
      · exact ⟨_, .file hfixed hidentity hentries⟩
      · exact ⟨_, .entry hfixed hidentity hentries hlast⟩
  · simp only [HasNoFixedTarget, not_forall, Bool.not_eq_true] at hfixed
    obtain ⟨target, htarget, hblank⟩ := hfixed
    exact ⟨_, .fixed htarget hblank⟩

/-- **The target of an identity** is where the options make it go. -/
theorem target?_eq_iff :
    (options.routing map).target? identity = answer ↔ options.GoesTo map.find? identity answer := by
  constructor
  · rintro rfl
    obtain ⟨answer, hanswer⟩ := exists_goesTo options map.find? identity
    rwa [hanswer.target?_eq]
  · exact GoesTo.target?_eq

end SerializerOptions

/-! ## Mapping entries -/

/-- **What writes a mapping entry**: a source, the first equals sign and a
target, neither of which is blank. They count without the white space around
them. -/
inductive WritesEntry : Text → Text × Text → Prop where
  | intro {before after : Text} (hequals : '=' ∉ before) (hbefore : before.isBlank = false)
      (hafter : after.isBlank = false) :
      WritesEntry (before ++ '=' :: after) (before.trim, after.trim)

theorem mappingEntry_eq_ok_iff {raw : Text} {entry : Text × Text} :
    mappingEntry raw = .ok entry ↔ WritesEntry raw entry := by
  unfold mappingEntry
  constructor
  · intro h
    split at h
    · cases h
    · next before after hsplit =>
      obtain ⟨rfl, hequals⟩ := Text.splitFirst?_eq_some_iff.1 hsplit
      split at h
      · cases h
      · next hblank =>
        cases h
        rw [Bool.or_eq_true, not_or, Bool.not_eq_true, Bool.not_eq_true] at hblank
        exact .intro hequals hblank.1 hblank.2
  · rintro ⟨hequals, hbefore, hafter⟩
    simp only [Text.splitFirst?_eq_some_iff.2 ⟨rfl, hequals⟩, hbefore, hafter]
    rfl

/-- **White space around the parts is immaterial.** -/
theorem mappingEntry_of_isBlank {source target front behind before after : Text}
    (hsource : source.trim = source) (hsourceNe : source ≠ []) (hequals : '=' ∉ source)
    (htarget : target.trim = target) (htargetNe : target ≠ []) (hfront : front.isBlank = true)
    (hbehind : behind.isBlank = true) (hbefore : before.isBlank = true)
    (hafter : after.isBlank = true) :
    mappingEntry (front ++ (source ++ behind) ++ '=' :: (before ++ (target ++ after))) =
      .ok (source, target) := by
  have hpart : ∀ {part left right : Text}, part.trim = part → part ≠ [] → left.isBlank = true →
      right.isBlank = true →
      (left ++ (part ++ right)).trim = part ∧ (left ++ (part ++ right)).isBlank = false := by
    intro part left right hpart hne hleft hright
    have htrim : (left ++ (part ++ right)).trim = part :=
      (Text.trimWhile_append (List.all_eq_true.1 hleft) (List.all_eq_true.1 hright)).trans hpart
    refine ⟨htrim, Bool.eq_false_iff.2 fun hblank => hne ?_⟩
    rw [← htrim, Text.trim_eq_nil_iff.2 hblank]
  have hnone : ∀ {blank : Text}, blank.isBlank = true → '=' ∉ blank := by
    intro blank hblank hmem
    cases List.all_eq_true.1 hblank '=' hmem
  obtain ⟨hfirst, hfirstBlank⟩ := hpart hsource hsourceNe hfront hbehind
  obtain ⟨hsecond, hsecondBlank⟩ := hpart htarget htargetNe hbefore hafter
  have hwrites := WritesEntry.intro (by simp [hnone hfront, hequals, hnone hbehind])
    hfirstBlank hsecondBlank
  rw [hfirst, hsecond] at hwrites
  exact mappingEntry_eq_ok_iff.2 hwrites

namespace SerializerOptions

/-- **The precedence of the options.** Whatever the mapping file gives, a routing
comes of the options, and every identity has in it exactly the target that the
options and the file make it go to. A mapping entry is read from exactly the
texts that write one, whatever white space they have around its parts. -/
theorem routing_follows_precedence {options : SerializerOptions}
    {read : Text → Except FileFault Bytes} {file : Text → Option Text}
    (hfile : options.GivesMap read file) :
    (∃ routing, Except.map options.routing (options.fileMap (m := Id) read) = .ok routing ∧
      ∀ identity answer,
        routing.target? identity = answer ↔ options.GoesTo file identity answer) ∧
      (∀ raw entry, mappingEntry raw = .ok entry ↔ WritesEntry raw entry) ∧
      ∀ source target front behind before after : Text,
        source.trim = source → source ≠ [] → '=' ∉ source → target.trim = target → target ≠ [] →
        front.isBlank = true → behind.isBlank = true → before.isBlank = true →
        after.isBlank = true →
        mappingEntry (front ++ (source ++ behind) ++ '=' :: (before ++ (target ++ after))) =
          .ok (source, target) := by
  obtain ⟨map, hmap, rfl⟩ := hfile.exists_fileMap
  refine ⟨⟨options.routing map, by rw [hmap]; rfl, fun _ _ => target?_eq_iff⟩,
    fun _ _ => mappingEntry_eq_ok_iff, ?_⟩
  intro source target front behind before after hsource hsourceNe hequals htarget htargetNe
  exact mappingEntry_of_isBlank hsource hsourceNe hequals htarget htargetNe

/-- The fixed target is blank, the last of two entries counts and not the file,
and the file is asked about the rest. -/
theorem routing_follows_precedence_last :
    let options : SerializerOptions :=
      { tableIdentifier := some " ".toList
        mappings := [("d.t".toList, "ods.old".toList), ("d.t".toList, "ods.new".toList)]
        mappingFile := some "map.yaml".toList }
    let read : Text → Except FileFault Bytes :=
      fun _ => .ok (Text.bytes "d.t: ods.file\nd.u: ods.file\n".toList)
    ∃ file routing, options.GivesMap read file ∧
      Except.map options.routing (options.fileMap (m := Id) read) = .ok routing ∧
      routing.target? "d.t".toList = some "ods.new".toList ∧
      routing.target? "d.u".toList = some "ods.file".toList ∧
      routing.target? "\t".toList = none ∧
      mappingEntry " d.t =\tods.new".toList = .ok ("d.t".toList, "ods.new".toList) := by
  intro options read
  have hmap : MappingFile.decode "map.yaml".toList (read "map.yaml".toList) =
      .ok [("d.t".toList, "ods.file".toList), ("d.u".toList, "ods.file".toList)] := by
    decide +kernel
  have hfile : options.GivesMap read _ := .named rfl hmap
  have hfixed : options.HasNoFixedTarget := by
    rintro _ ⟨⟩
    decide
  obtain ⟨⟨routing, hrouting, htarget⟩, -, hspaced⟩ := routing_follows_precedence hfile
  refine ⟨_, routing, hfile, hrouting, (htarget _ _).2 ?_, (htarget _ _).2 ?_, (htarget _ _).2 ?_,
    ?_⟩
  · have hentries : options.mappings =
        [("d.t".toList, "ods.old".toList)] ++ ("d.t".toList, "ods.new".toList) :: [] := rfl
    exact .entry hfixed (by decide) hentries (List.forall_mem_nil _)
  · exact .file hfixed (by decide) (by decide)
  · exact .blank hfixed (by decide)
  · exact hspaced "d.t".toList "ods.new".toList [' '] [' '] ['\t'] [] (by decide) (by decide)
      (by decide) (by decide) (by decide) (by decide) (by decide) (by decide) (by decide)

end SerializerOptions

end ChangeFeed
