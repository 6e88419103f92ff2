import NeuriploRuntime.Repository.Groups

open neuriplo.config

namespace neuriplo.repository

/-- A version directory with a file some backend recognizes. -/
def HoldsModelFile (contents : VersionDirectory) : Prop :=
  ∃ file_name ∈ contents.names false, backendForModelFile file_name ≠ ""

/-- The chosen directory of version `number` holds a recognized model file. -/
def Servable (contents : ModelDirectory) (number : ℕ) : Prop :=
  ∃ raw version, ChosenDirectory contents number raw ∧ contents.directory? raw = some version ∧
    HoldsModelFile version

variable {override_value : Option String}

/-- A file is picked once one with a known backend has been seen. -/
theorem pickCandidate_ne_empty {version_dir file_name : String} {picked : String × String}
    (hname : file_name ≠ "") :
    (pickCandidate override_value version_dir picked file_name).1 ≠ "" ↔
      picked.1 ≠ "" ∨ backendForModelFile file_name ≠ "" := by
  simp only [pickCandidate]
  split_ifs with hbackend hbetter
  · simp [hbackend]
  · simp [joinPath_ne_empty version_dir hname, hbackend]
  · push Not at hbetter
    simp [hbetter.1]

/-- Some file is picked exactly when one of them has a known backend. -/
theorem pickCandidates_ne_empty {version_dir : String} {picked : String × String} (names : List String)
    (hnames : ∀ name ∈ names, name ≠ "") :
    (names.foldl (pickCandidate override_value version_dir) picked).1 ≠ "" ↔
      picked.1 ≠ "" ∨ ∃ file_name ∈ names, backendForModelFile file_name ≠ "" := by
  induction names generalizing picked with
  | nil => simp
  | cons name names ih =>
    rw [List.foldl_cons, ih (fun other hother => hnames other (List.mem_cons_of_mem _ hother)),
      pickCandidate_ne_empty (hnames name List.mem_cons_self), or_assoc]
    simp

/-- A version directory is picked from exactly when it holds a recognized
model file. -/
theorem pickModelFile_isSome {version_dir : String} {contents : VersionDirectory} :
    (pickModelFile override_value version_dir (some contents)).isSome ↔ HoldsModelFile contents := by
  have hnames : ∀ name ∈ sortedEntries (some contents) false, name ≠ "" := by
    intro name hname
    exact (contents.validName_of_mem ((mem_sortedEntries contents false name).mp hname)).1
  have hpicked := @pickCandidates_ne_empty override_value version_dir ("", "") _ hnames
  simp only [ne_eq, not_true_eq_false, false_or, mem_sortedEntries] at hpicked
  simp only [pickModelFile, HoldsModelFile]
  split_ifs with hempty
  · simpa [hempty] using hpicked
  · simpa [hempty] using hpicked

/-- At most one directory is chosen for a version. -/
theorem ChosenDirectory.unique {contents : ModelDirectory} {number : ℕ} {first second : String}
    (hfirst : ChosenDirectory contents number first) (hsecond : ChosenDirectory contents number second) :
    first = second := IsLeast.unique hfirst hsecond

section

variable {contents : ModelDirectory} {groups : List VersionGroup} {model_dir : String}

/-- A group is picked from exactly when its version can be served. -/
theorem VersionsDescending.servable_iff (hgroups : VersionsDescending contents groups)
    {group : VersionGroup} (hgroup : group ∈ groups) :
    (pickGroup override_value model_dir (some contents) group.2).isSome ↔
      Servable contents (versionNumber group.1) := by
  obtain ⟨-, hchosen⟩ := hgroups.chosen group hgroup
  obtain ⟨version, hversion⟩ := (contents.mem_names_iff _).mp hchosen.1.1
  simp only [pickGroup, Option.bind_some, hversion]
  rw [pickModelFile_isSome]
  constructor
  · intro hholds
    exact ⟨_, version, hchosen, hversion, hholds⟩
  · rintro ⟨raw, other, hraw, hother, hholds⟩
    rw [hraw.unique hchosen, hversion] at hother
    cases hother
    exact hholds

/-- The version of a servable directory heads one of the groups. -/
theorem VersionsDescending.group_of_servable (hgroups : VersionsDescending contents groups) {number : ℕ}
    (hservable : Servable contents number) : ∃ group ∈ groups, versionNumber group.1 = number := by
  obtain ⟨raw, -, hchosen, -⟩ := hservable
  obtain ⟨group, hgroup, hnumber⟩ := hgroups.covered raw hchosen.1.1 hchosen.1.2.1
  exact ⟨group, hgroup, hnumber.trans hchosen.1.2.2⟩

/-- Two groups of the same version are one. -/
theorem VersionsDescending.group_unique (hgroups : VersionsDescending contents groups)
    {first second : VersionGroup} (hfirst : first ∈ groups) (hsecond : second ∈ groups)
    (hnumber : versionNumber first.1 = versionNumber second.1) : first = second := by
  have hnodup : (groups.map (fun group => versionNumber group.1)).Nodup := by
    apply List.pairwise_map.mpr
    exact hgroups.descending.imp (fun hlt => ne_of_gt hlt)
  exact List.inj_on_of_nodup_map hnodup hfirst hsecond hnumber

/-- The version picked is that of the first group with a file to pick. -/
theorem pickVersion_eq_findSome? (groups : List VersionGroup) :
    (pickVersion override_value model_dir (some contents) groups).1 =
      groups.findSome? (fun group =>
        (pickGroup override_value model_dir (some contents) group.2).map
          (fun found => (found.1, found.2, group.1))) := by
  induction groups with
  | nil => rfl
  | cons group groups ih =>
    obtain ⟨canonical, raw_names⟩ := group
    cases hpick : pickGroup override_value model_dir (some contents) raw_names with
    | none => simp [pickVersion, hpick, ih]
    | some found => simp [pickVersion, hpick]

/-- The scan stops at the highest version that can be served. -/
theorem VersionsDescending.pickVersion_some (hgroups : VersionsDescending contents groups)
    {model_file backend canonical : String}
    (hpick : (pickVersion override_value model_dir (some contents) groups).1 =
      some (model_file, backend, canonical)) :
    ∃ group ∈ groups, group.1 = canonical ∧
      pickGroup override_value model_dir (some contents) group.2 = some (model_file, backend) ∧
      IsGreatest {number | Servable contents number} (versionNumber canonical) := by
  rw [pickVersion_eq_findSome?, List.findSome?_eq_some_iff] at hpick
  obtain ⟨before, group, after, hsplit, hfound, hbefore⟩ := hpick
  simp only [Option.map_eq_some_iff, Prod.mk.injEq] at hfound
  obtain ⟨⟨file, name⟩, hfound, rfl, rfl, rfl⟩ := hfound
  have hgroup : group ∈ groups := by simp [hsplit]
  refine ⟨group, hgroup, rfl, hfound, ?_, ?_⟩
  · exact (hgroups.servable_iff hgroup).mp (by rw [hfound]; rfl)
  · intro number hservable
    obtain ⟨other, hother, rfl⟩ := hgroups.group_of_servable hservable
    have hdescending := hgroups.descending
    rw [hsplit, List.pairwise_append, List.pairwise_cons] at hdescending
    rw [hsplit] at hother
    obtain hearlier | hlater := List.mem_append.mp hother
    · -- Every group before the pick was skipped for want of a model file.
      have hskipped := hbefore other hearlier
      rw [Option.map_eq_none_iff] at hskipped
      have hmem : other ∈ groups := by simp [hsplit, hearlier]
      have hpicked := (@VersionsDescending.servable_iff override_value _ _ model_dir hgroups _ hmem).mpr hservable
      simp [hskipped] at hpicked
    · obtain rfl | hlater := List.mem_cons.mp hlater
      · exact le_rfl
      · exact le_of_lt (hdescending.2.1.1 other hlater)

/-- Where a version can be served, one is picked. -/
theorem VersionsDescending.pickVersion_isSome (hgroups : VersionsDescending contents groups) {number : ℕ}
    (hservable : Servable contents number) :
    (pickVersion override_value model_dir (some contents) groups).1.isSome := by
  obtain ⟨group, hgroup, rfl⟩ := hgroups.group_of_servable hservable
  rw [pickVersion_eq_findSome?, List.findSome?_isSome_iff]
  refine ⟨group, hgroup, ?_⟩
  rw [Option.isSome_map]
  exact (hgroups.servable_iff hgroup).mpr hservable

end

/-- A discovered model: its configuration names the highest version that can be
served, without leading zeros, and the file picked from its directory. -/
structure ServesHighest (override_value : Option String) (root : String) (contents : ModelDirectory)
    (config : RuntimeConfig) : Prop where
  highest : IsGreatest {number | Servable contents number} (versionNumber config.model_version)
  numeric : isNumericVersion config.model_version = true
  unpadded : ∀ rest, config.model_version.toList = '0' :: rest → rest = []
  picked : ∃ raw version, ChosenDirectory contents (versionNumber config.model_version) raw ∧
    contents.directory? raw = some version ∧
    pickModelFile override_value (joinPath (joinPath root config.model_name) raw) (some version) =
      some (config.model_path, config.backend)

@[simp] theorem modelConfig_model_name (defaults : RuntimeConfig) (name version file backend : String) :
    (modelConfig defaults name version file backend).model_name = name := by
  simp only [modelConfig]
  split_ifs <;> rfl

@[simp] theorem modelConfig_model_version (defaults : RuntimeConfig) (name version file backend : String) :
    (modelConfig defaults name version file backend).model_version = version := by
  simp only [modelConfig]
  split_ifs <;> rfl

@[simp] theorem modelConfig_model_path (defaults : RuntimeConfig) (name version file backend : String) :
    (modelConfig defaults name version file backend).model_path = file := by
  simp only [modelConfig]
  split_ifs <;> rfl

@[simp] theorem modelConfig_backend (defaults : RuntimeConfig) (name version file backend : String) :
    (modelConfig defaults name version file backend).backend = backend := by
  simp only [modelConfig]
  split_ifs <;> rfl

variable {root : String} {defaults : RuntimeConfig}

/-- What one model directory contributes to the scan. -/
theorem scanModel_eq (name : String) (contents : ModelDirectory) :
    (scanModel override_value root defaults name (some contents)).1 =
      ((pickVersion override_value (joinPath root name) (some contents)
        (groupVersionsDescending (joinPath root name) name (some contents)).1).1).map
        (fun found => modelConfig defaults name found.2.2 found.1 found.2.1) := by
  simp only [scanModel]
  split
  next hpick => rw [hpick]; rfl
  next hpick => rw [hpick]; rfl

/-- What the scan finds for a model serves its highest version that can be
served. -/
theorem scanModel_servesHighest {name : String} {contents : ModelDirectory} {config : RuntimeConfig}
    (hscan : (scanModel override_value root defaults name (some contents)).1 = some config) :
    config.model_name = name ∧ ServesHighest override_value root contents config := by
  rw [scanModel_eq, Option.map_eq_some_iff] at hscan
  obtain ⟨⟨model_file, backend, canonical⟩, hpick, rfl⟩ := hscan
  have hgroups := groupVersionsDescending_spec (joinPath root name) name contents
  obtain ⟨group, hgroup, rfl, hfound, hgreatest⟩ := hgroups.pickVersion_some hpick
  obtain ⟨hcanonical, hchosen⟩ := hgroups.chosen group hgroup
  obtain ⟨version, hversion⟩ := (contents.mem_names_iff _).mp hchosen.1.1
  simp only [pickGroup, Option.bind_some, hversion] at hfound
  refine ⟨by simp, ?_, ?_, ?_, ?_⟩
  · simpa using hgreatest
  · rw [modelConfig_model_version, hcanonical]
    exact canonicalVersion_isNumeric hchosen.1.2.1
  · rw [modelConfig_model_version, hcanonical]
    exact (canonicalVersion_normal _).leading
  · exact ⟨_, version, by simpa using hchosen, hversion, by simpa using hfound⟩

/-- Activating the version of a discovered model, in any spelling, finds what
the scan found. -/
theorem resolve_of_scanModel {repository : Repository} {name v : String} {contents : ModelDirectory}
    {config : RuntimeConfig} (hcontents : repository.directory? name = some contents)
    (hscan : (scanModel override_value root defaults name (some contents)).1 = some config)
    (hseparator : '\\' ∉ name.toList) (hnumeric : isNumericVersion v = true)
    (hnumber : versionNumber v = versionNumber config.model_version) :
    resolveRepositoryModelVersion override_value root (some repository) name v =
      some ⟨config.model_path, config.backend, config.model_version⟩ := by
  rw [scanModel_eq, Option.map_eq_some_iff] at hscan
  obtain ⟨⟨model_file, backend, canonical⟩, hpick, rfl⟩ := hscan
  have hgroups := groupVersionsDescending_spec (joinPath root name) name contents
  obtain ⟨group, hgroup, rfl, hfound, -⟩ := hgroups.pickVersion_some hpick
  rw [modelConfig_model_version] at hnumber
  have hvalid := repository.validName_of_mem ((repository.mem_names_iff name).mpr ⟨contents, hcontents⟩)
  have hlabel : ∀ other ∈ (groupVersionsDescending (joinPath root name) name (some contents)).1,
      (other.1 == canonicalVersion v) = true ↔ versionNumber other.1 = versionNumber v := by
    intro other hother
    obtain ⟨hcanonical, hchosen⟩ := hgroups.chosen other hother
    rw [beq_iff_eq, hcanonical, canonicalVersion_eq_iff hchosen.1.2.1 hnumeric,
      versionNumber_canonicalVersion]
  have hfind : (groupVersionsDescending (joinPath root name) name (some contents)).1.find?
      (fun other => other.1 == canonicalVersion v) = some group := by
    cases hsearch : (groupVersionsDescending (joinPath root name) name (some contents)).1.find?
        (fun other => other.1 == canonicalVersion v) with
    | none =>
      have habsent := List.find?_eq_none.mp hsearch group hgroup
      exact absurd ((hlabel group hgroup).mpr hnumber.symm) habsent
    | some other =>
      have hother := List.mem_of_find?_eq_some hsearch
      have hlabelled := List.find?_some hsearch
      have hsame := (hlabel other hother).mp hlabelled
      rw [hgroups.group_unique hother hgroup (hsame.trans hnumber)]
  simp only [resolveRepositoryModelVersion, hnumeric, Bool.not_true, Bool.false_eq_true, if_false]
  rw [if_neg (by simp [hvalid.1, hvalid.2.1, hvalid.2.2.1, hvalid.2.2.2, hseparator])]
  simp [hcontents, hfind, hfound]

/-- The scan of a repository finds what the scans of its models do. -/
theorem mem_scanModelRepository {repository : Repository} {config : RuntimeConfig} :
    config ∈ (scanModelRepository override_value root (some repository) defaults).1 ↔
      ∃ name contents, repository.directory? name = some contents ∧
        (scanModel override_value root defaults name (some contents)).1 = some config := by
  simp only [scanModelRepository, List.mem_filterMap, List.mem_map, mem_sortedEntries]
  constructor
  · rintro ⟨_, ⟨name, hname, rfl⟩, hconfig⟩
    obtain ⟨contents, hcontents⟩ := (repository.mem_names_iff name).mp hname
    rw [hcontents] at hconfig
    exact ⟨name, contents, hcontents, hconfig⟩
  · rintro ⟨name, contents, hcontents, hconfig⟩
    refine ⟨_, ⟨name, (repository.mem_names_iff name).mpr ⟨contents, hcontents⟩, rfl⟩, ?_⟩
    rw [hcontents]
    exact hconfig

/-- The scan lists a model once. -/
theorem scanModelRepository_nodup (repository : Repository) :
    ((scanModelRepository override_value root (some repository) defaults).1.map
      RuntimeConfig.model_name).Nodup := by
  have hsublist : ∀ names : List String, (∀ name ∈ names, ∃ contents, repository.directory? name = some contents) →
      List.Sublist (((names.map (fun name => scanModel override_value root defaults name
        (repository.directory? name))).filterMap Prod.fst).map RuntimeConfig.model_name) names := by
    intro names hnames
    induction names with
    | nil => simp
    | cons name names ih =>
      have hrest := ih (fun other hother => hnames other (List.mem_cons_of_mem _ hother))
      obtain ⟨contents, hcontents⟩ := hnames name List.mem_cons_self
      cases hscan : (scanModel override_value root defaults name (some contents)).1 with
      | none =>
        rw [List.map_cons, List.filterMap_cons_none (by rw [hcontents, hscan])]
        exact hrest.cons name
      | some config =>
        rw [List.map_cons, List.filterMap_cons_some (by rw [hcontents, hscan]), List.map_cons,
          (scanModel_servesHighest hscan).1]
        exact hrest.cons_cons name
  refine List.Nodup.sublist ?_ (sortedEntries_nodup repository true)
  apply hsublist
  intro name hname
  exact (repository.mem_names_iff name).mp ((mem_sortedEntries repository true name).mp hname)

/-- Discovery and activation agree. The scan serves of every model the highest
version whose chosen directory holds a recognized model file, without leading
zeros, and any spelling of that version resolves to the same file, backend and
label. The order of the versions is the order of the numbers they write. -/
theorem discovery_agrees (override_value : Option String) (root : String) (repository : Option Repository)
    (defaults : RuntimeConfig) :
    ((scanModelRepository override_value root repository defaults).1.map RuntimeConfig.model_name).Nodup ∧
      (∀ config ∈ (scanModelRepository override_value root repository defaults).1,
        ∃ contents, repository.bind (·.directory? config.model_name) = some contents ∧
          ServesHighest override_value root contents config) ∧
      (∀ name contents number, repository.bind (·.directory? name) = some contents →
        Servable contents number →
        ∃ config ∈ (scanModelRepository override_value root repository defaults).1, config.model_name = name) ∧
      (∀ config ∈ (scanModelRepository override_value root repository defaults).1,
        '\\' ∉ config.model_name.toList → ∀ v, isNumericVersion v = true →
          versionNumber v = versionNumber config.model_version →
          resolveRepositoryModelVersion override_value root repository config.model_name v =
            some ⟨config.model_path, config.backend, config.model_version⟩) ∧
      ∀ candidate current, isNumericVersion candidate = true → isNumericVersion current = true →
        (isHigherVersion candidate current = true ↔ versionNumber current < versionNumber candidate) := by
  cases repository with
  | none =>
    refine ⟨by simp [scanModelRepository], by simp [scanModelRepository], by simp,
      by simp [scanModelRepository], ?_⟩
    intro candidate current hcandidate hcurrent
    exact isHigherVersion_iff hcandidate hcurrent
  | some repository =>
    refine ⟨scanModelRepository_nodup repository, ?_, ?_, ?_, ?_⟩
    · intro config hconfig
      obtain ⟨name, contents, hcontents, hscan⟩ := mem_scanModelRepository.mp hconfig
      obtain ⟨rfl, hserves⟩ := scanModel_servesHighest hscan
      exact ⟨contents, hcontents, hserves⟩
    · intro name contents number hcontents hservable
      have hgroups := groupVersionsDescending_spec (joinPath root name) name contents
      have hpick := @VersionsDescending.pickVersion_isSome override_value _ _ (joinPath root name) hgroups _
        hservable
      obtain ⟨found, hfound⟩ := Option.isSome_iff_exists.mp hpick
      refine ⟨modelConfig defaults name found.2.2 found.1 found.2.1, ?_, by simp⟩
      apply mem_scanModelRepository.mpr
      exact ⟨name, contents, hcontents, by rw [scanModel_eq, hfound]; rfl⟩
    · intro config hconfig hseparator v hnumeric hnumber
      obtain ⟨name, contents, hcontents, hscan⟩ := mem_scanModelRepository.mp hconfig
      obtain ⟨rfl, -⟩ := scanModel_servesHighest hscan
      exact resolve_of_scanModel hcontents hscan hseparator hnumeric hnumber
    · intro candidate current hcandidate hcurrent
      exact isHigherVersion_iff hcandidate hcurrent

/-- A tree with two spellings of version 7, the higher version 10 still empty. -/
def stagedRepository : Repository :=
  ⟨[("detector", .directory ⟨[("7", .directory ⟨[("model.onnx", .file)], by decide, by decide⟩),
      ("10", .directory ⟨[], by decide, by decide⟩),
      ("007", .directory ⟨[("labels.txt", .file), ("model.PLAN", .file), ("model.onnx", .file)],
        by decide, by decide⟩)], by decide, by decide⟩)], by decide, by decide⟩

example : (scanModelRepository none "/models" (some stagedRepository) {}).1.map
    (fun config => (config.model_version, config.model_path)) = [("7", "/models/detector/007/model.PLAN")] := by
  decide +kernel

end neuriplo.repository
