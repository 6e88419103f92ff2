import Mathlib.Data.Prod.Lex
import Mathlib.Order.Bounds.Basic
import NeuriploRuntime.Repository.Scan

namespace neuriplo.repository

/-- `raw` is the directory the version `number` is served from: of the version
directories that write this number, the first by name. -/
def ChosenDirectory (contents : ModelDirectory) (number : ℕ) (raw : String) : Prop :=
  IsLeast {name | name ∈ contents.names true ∧ isNumericVersion name = true ∧ versionNumber name = number} raw

/-- The groups of a list of digit names: one for each canonical version, with
the names that spell it in the order of the list. -/
structure Grouped (names : List String) (groups : List VersionGroup) : Prop where
  keys : groups.Pairwise (fun first second => first.1 < second.1)
  nonempty : ∀ group ∈ groups, group.2 ≠ []
  spelled : ∀ group ∈ groups, group.2 = names.filter (fun name => canonicalVersion name == group.1)
  covered : ∀ name ∈ names, ∃ group ∈ groups, group.1 = canonicalVersion name

section

variable {canonical name : String} {groups : List VersionGroup}

/-- A directory is added under its canonical version. -/
theorem addVersion_keys (group : VersionGroup) (hgroup : group ∈ addVersion canonical name groups) :
    group.1 = canonical ∨ ∃ earlier ∈ groups, earlier.1 = group.1 := by
  induction groups with
  | nil =>
    simp only [addVersion, List.mem_singleton] at hgroup
    simp [hgroup]
  | cons first rest ih =>
    obtain ⟨key, raw_names⟩ := first
    simp only [addVersion] at hgroup
    split_ifs at hgroup with hlt heq
    · obtain rfl | hrest := List.mem_cons.mp hgroup
      · simp
      · exact .inr ⟨group, hrest, rfl⟩
    · obtain rfl | hrest := List.mem_cons.mp hgroup
      · simp [heq]
      · exact .inr ⟨group, List.mem_cons_of_mem _ hrest, rfl⟩
    · obtain rfl | hrest := List.mem_cons.mp hgroup
      · exact .inr ⟨_, List.mem_cons_self, rfl⟩
      · obtain hkey | ⟨earlier, hearlier, hkey⟩ := ih hrest
        · exact .inl hkey
        · exact .inr ⟨earlier, List.mem_cons_of_mem _ hearlier, hkey⟩

/-- The groups stay in the order of their versions. -/
theorem addVersion_sorted (hkeys : groups.Pairwise (fun first second => first.1 < second.1)) :
    (addVersion canonical name groups).Pairwise (fun first second => first.1 < second.1) := by
  induction groups with
  | nil => simp [addVersion]
  | cons first rest ih =>
    obtain ⟨key, raw_names⟩ := first
    obtain ⟨hfirst, hrest⟩ := List.pairwise_cons.mp hkeys
    simp only [addVersion]
    split_ifs with hlt heq
    · refine List.pairwise_cons.mpr ⟨?_, hkeys⟩
      intro group hgroup
      obtain rfl | hgroup := List.mem_cons.mp hgroup
      · exact hlt
      · exact lt_trans hlt (hfirst group hgroup)
    · exact List.pairwise_cons.mpr ⟨hfirst, hrest⟩
    · refine List.pairwise_cons.mpr ⟨?_, ih hrest⟩
      intro group hgroup
      obtain hkey | ⟨earlier, hearlier, hkey⟩ := addVersion_keys group hgroup
      · rw [hkey]
        exact lt_of_le_of_ne (not_lt.mp hlt) (Ne.symm heq)
      · rw [← hkey]
        exact hfirst earlier hearlier

/-- Adding a name only changes the group of its version. -/
theorem mem_addVersion (hkeys : groups.Pairwise (fun first second => first.1 < second.1))
    (group : VersionGroup) :
    group ∈ addVersion canonical name groups ↔
      group ∈ groups ∧ group.1 ≠ canonical ∨
        ∃ raw_names, group = (canonical, raw_names ++ [name]) ∧
          ((canonical, raw_names) ∈ groups ∨
            raw_names = [] ∧ ∀ earlier ∈ groups, earlier.1 ≠ canonical) := by
  induction groups with
  | nil => simp [addVersion]
  | cons first rest ih =>
    obtain ⟨key, names⟩ := first
    obtain ⟨hfirst, hrest⟩ := List.pairwise_cons.mp hkeys
    simp only [addVersion]
    split_ifs with hlt heq
    · have hnew : ∀ earlier ∈ (key, names) :: rest, earlier.1 ≠ canonical := by
        intro earlier hearlier
        obtain rfl | hearlier := List.mem_cons.mp hearlier
        · exact ne_of_gt hlt
        · exact ne_of_gt (lt_trans hlt (hfirst earlier hearlier))
      constructor
      · intro hgroup
        obtain rfl | hgroup := List.mem_cons.mp hgroup
        · exact .inr ⟨[], rfl, .inr ⟨rfl, hnew⟩⟩
        · exact .inl ⟨hgroup, hnew group hgroup⟩
      · rintro (⟨hgroup, -⟩ | ⟨raw_names, rfl, hold | ⟨rfl, -⟩⟩)
        · exact List.mem_cons_of_mem _ hgroup
        · exact absurd rfl (hnew _ hold)
        · exact List.mem_cons_self
    · subst heq
      have hlater : ∀ later ∈ rest, later.1 ≠ canonical :=
        fun later hlater => ne_of_gt (hfirst later hlater)
      constructor
      · intro hgroup
        obtain rfl | hgroup := List.mem_cons.mp hgroup
        · exact .inr ⟨names, rfl, .inl List.mem_cons_self⟩
        · exact .inl ⟨List.mem_cons_of_mem _ hgroup, hlater group hgroup⟩
      · rintro (⟨hgroup, hne⟩ | ⟨raw_names, rfl, hold | ⟨-, hnew⟩⟩)
        · obtain rfl | hgroup := List.mem_cons.mp hgroup
          · exact absurd rfl hne
          · exact List.mem_cons_of_mem _ hgroup
        · obtain heq | hold := List.mem_cons.mp hold
          · simp only [Prod.mk.injEq, true_and] at heq
            rw [heq]
            exact List.mem_cons_self
          · exact absurd rfl (hlater _ hold)
        · exact absurd rfl (hnew _ List.mem_cons_self)
    · have hne : key ≠ canonical := Ne.symm heq
      rw [List.mem_cons, ih hrest]
      constructor
      · rintro (rfl | ⟨hgroup, hother⟩ | ⟨raw_names, rfl, hold | ⟨hempty, hnew⟩⟩)
        · exact .inl ⟨List.mem_cons_self, hne⟩
        · exact .inl ⟨List.mem_cons_of_mem _ hgroup, hother⟩
        · exact .inr ⟨raw_names, rfl, .inl (List.mem_cons_of_mem _ hold)⟩
        · refine .inr ⟨raw_names, rfl, .inr ⟨hempty, ?_⟩⟩
          intro earlier hearlier
          obtain rfl | hearlier := List.mem_cons.mp hearlier
          · exact hne
          · exact hnew earlier hearlier
      · rintro (⟨hgroup, hother⟩ | ⟨raw_names, rfl, hold | ⟨hempty, hnew⟩⟩)
        · obtain rfl | hgroup := List.mem_cons.mp hgroup
          · exact .inl rfl
          · exact .inr (.inl ⟨hgroup, hother⟩)
        · obtain hfirstGroup | hold := List.mem_cons.mp hold
          · simp only [Prod.mk.injEq] at hfirstGroup
            exact absurd hfirstGroup.1.symm hne
          · exact .inr (.inr ⟨raw_names, rfl, .inl hold⟩)
        · refine .inr (.inr ⟨raw_names, rfl, .inr ⟨hempty, ?_⟩⟩)
          intro earlier hearlier
          exact hnew earlier (List.mem_cons_of_mem _ hearlier)

end

theorem Grouped.nil : Grouped [] [] := by
  constructor <;> simp

/-- One more name of the listing keeps the groups complete. -/
theorem Grouped.addVersion {names : List String} {groups : List VersionGroup}
    (hgrouped : Grouped names groups) (name : String) :
    Grouped (names ++ [name]) (addVersion (canonicalVersion name) name groups) := by
  have hmem := @mem_addVersion (canonicalVersion name) name groups hgrouped.keys
  refine ⟨addVersion_sorted hgrouped.keys, ?_, ?_, ?_⟩
  · intro group hgroup
    obtain ⟨hold, -⟩ | ⟨raw_names, rfl, -⟩ := (hmem group).mp hgroup
    · exact hgrouped.nonempty group hold
    · simp
  · intro group hgroup
    obtain ⟨hold, hne⟩ | ⟨raw_names, rfl, hold | ⟨rfl, hnew⟩⟩ := (hmem group).mp hgroup
    · have hskip : (canonicalVersion name == group.1) = false := beq_false_of_ne (Ne.symm hne)
      rw [List.filter_append, ← hgrouped.spelled group hold]
      simp [hskip]
    · rw [List.filter_append, ← hgrouped.spelled _ hold]
      simp
    · -- A version seen for the first time has no earlier spelling in the list.
      have hfilter : names.filter (fun other => canonicalVersion other == canonicalVersion name) = [] := by
        rw [List.filter_eq_nil_iff]
        intro other hother hsame
        obtain ⟨earlier, hearlier, hkey⟩ := hgrouped.covered other hother
        exact hnew earlier hearlier (hkey.trans (beq_iff_eq.mp hsame))
      rw [List.filter_append, hfilter]
      simp
  · intro other hother
    by_cases hsame : canonicalVersion other = canonicalVersion name
    · by_cases hold : ∃ earlier ∈ groups, earlier.1 = canonicalVersion name
      · obtain ⟨⟨key, raw_names⟩, hearlier, rfl⟩ := hold
        exact ⟨_, (hmem _).mpr (.inr ⟨raw_names, rfl, .inl hearlier⟩), hsame.symm⟩
      · push Not at hold
        exact ⟨_, (hmem _).mpr (.inr ⟨[], rfl, .inr ⟨rfl, hold⟩⟩), hsame.symm⟩
    · have hearlier : other ∈ names := by
        obtain hearlier | hlast := List.mem_append.mp hother
        · exact hearlier
        · rw [List.mem_singleton.mp hlast] at hsame
          exact absurd rfl hsame
      obtain ⟨group, hgroup, hkey⟩ := hgrouped.covered other hearlier
      exact ⟨group, (hmem group).mpr (.inl ⟨hgroup, by rw [hkey]; exact hsame⟩), hkey⟩

/-- The loop over the listing groups its digit names and skips the others. -/
theorem collectVersion_grouped (model_dir model_name : String) {before : List String}
    {collected : List VersionGroup × List String} (names : List String)
    (hgrouped : Grouped (before.filter (fun name => isNumericVersion name)) collected.1) :
    Grouped ((before ++ names).filter (fun name => isNumericVersion name))
      (names.foldl (collectVersion model_dir model_name) collected).1 := by
  induction names generalizing before collected with
  | nil => simpa using hgrouped
  | cons name names ih =>
    have hstep : Grouped ((before ++ [name]).filter (fun name => isNumericVersion name))
        (collectVersion model_dir model_name collected name).1 := by
      cases hnumeric : isNumericVersion name with
      | false => simpa [collectVersion, hnumeric] using hgrouped
      | true => simpa [collectVersion, hnumeric] using hgrouped.addVersion name
    have hrest := ih hstep
    rw [List.append_assoc, List.singleton_append] at hrest
    exact hrest

/-- The scan compares labels by length first. On arbitrary names this is a
linear order. -/
theorem isHigherVersion_iff_key (candidate current : String) :
    isHigherVersion candidate current = true ↔
      toLex ((canonicalVersion current).length, canonicalVersion current) <
        toLex ((canonicalVersion candidate).length, canonicalVersion candidate) := by
  rw [Prod.Lex.toLex_lt_toLex]
  simp only [isHigherVersion]
  by_cases hlength : (canonicalVersion candidate).length = (canonicalVersion current).length
  · simp [hlength]
  · have hne : (canonicalVersion current).length ≠ (canonicalVersion candidate).length := Ne.symm hlength
    simp [hlength, hne]

/-- Versions are compared by their length and then as texts. -/
theorem notHigher_iff (first second : VersionGroup) :
    notHigher first second ↔
      toLex ((canonicalVersion second.1).length, canonicalVersion second.1) ≤
        toLex ((canonicalVersion first.1).length, canonicalVersion first.1) := by
  rw [notHigher, isHigherVersion_iff_key, not_lt]

instance : Std.Total notHigher where
  total first second := by
    rw [notHigher_iff, notHigher_iff]
    exact le_total _ _

instance : IsTrans VersionGroup notHigher where
  trans first second third hfirst hsecond := by
    rw [notHigher_iff] at hfirst hsecond ⊢
    exact le_trans hsecond hfirst

/-- What the scan may rely on about the groups of a model directory. -/
structure VersionsDescending (contents : ModelDirectory) (groups : List VersionGroup) : Prop where
  descending : groups.Pairwise (fun first second => versionNumber second.1 < versionNumber first.1)
  chosen : ∀ group ∈ groups, group.1 = canonicalVersion (group.2.headD "") ∧
    ChosenDirectory contents (versionNumber group.1) (group.2.headD "")
  covered : ∀ raw ∈ contents.names true, isNumericVersion raw = true →
    ∃ group ∈ groups, versionNumber group.1 = versionNumber raw

/-- The first name of a group is the least of the names with its number. -/
theorem Grouped.chosen {contents : ModelDirectory} {groups : List VersionGroup}
    (hgrouped : Grouped ((sortedEntries (some contents) true).filter (fun name => isNumericVersion name)) groups)
    {group : VersionGroup} (hgroup : group ∈ groups) :
    group.1 = canonicalVersion (group.2.headD "") ∧
      ChosenDirectory contents (versionNumber group.1) (group.2.headD "") := by
  obtain ⟨canonical, raw_names⟩ := group
  have hspelled := hgrouped.spelled _ hgroup
  simp only at hspelled
  have hsorted : raw_names.Pairwise (· ≤ ·) := by
    rw [hspelled]
    exact ((sortedEntries_sorted contents true).filter _).filter _
  have hmem : ∀ raw, raw ∈ raw_names ↔
      (raw ∈ contents.names true ∧ isNumericVersion raw = true) ∧ canonicalVersion raw = canonical := by
    intro raw
    rw [hspelled]
    simp only [List.mem_filter, mem_sortedEntries, beq_iff_eq]
  cases hnames : raw_names with
  | nil => exact absurd hnames (hgrouped.nonempty _ hgroup)
  | cons raw rest =>
    rw [hnames] at hsorted hmem
    obtain ⟨⟨hraw, hnumeric⟩, hcanonical⟩ := (hmem raw).mp List.mem_cons_self
    refine ⟨hcanonical.symm, ⟨⟨hraw, hnumeric, ?_⟩, ?_⟩⟩
    · rw [← hcanonical, versionNumber_canonicalVersion]
      rfl
    · rintro other ⟨hother, hotherNumeric, hnumber⟩
      have hsame : canonicalVersion other = canonical := by
        rw [← hcanonical, canonicalVersion_eq_iff hotherNumeric hnumeric, hnumber]
        change versionNumber canonical = _
        rw [← hcanonical, versionNumber_canonicalVersion]
      obtain rfl | hrest := List.mem_cons.mp ((hmem other).mpr ⟨⟨hother, hotherNumeric⟩, hsame⟩)
      · exact le_rfl
      · exact List.rel_of_pairwise_cons hsorted hrest

/-- Names that come in order are sorted already. -/
theorem sortRawNames_eq {names : List String} {groups : List VersionGroup} (hnames : names.Pairwise (· ≤ ·))
    (hgrouped : Grouped names groups) : groups.map sortRawNames = groups := by
  conv_rhs => rw [← List.map_id groups]
  apply List.map_congr_left
  intro group hgroup
  have hsorted : group.2.Pairwise (· ≤ ·) := by
    rw [hgrouped.spelled group hgroup]
    exact hnames.filter _
  simp [sortRawNames, hsorted.insertionSort_eq]

/-- The versions of a model are grouped and descend. -/
theorem groupVersionsDescending_spec (model_dir model_name : String) (contents : ModelDirectory) :
    VersionsDescending contents (groupVersionsDescending model_dir model_name (some contents)).1 := by
  have hgrouped := @collectVersion_grouped model_dir model_name [] ([], [])
    (sortedEntries (some contents) true) Grouped.nil
  rw [List.nil_append] at hgrouped
  have hsorted := (sortedEntries_sorted contents true).filter (fun name => isNumericVersion name)
  simp only [groupVersionsDescending]
  rw [sortRawNames_eq hsorted hgrouped]
  generalize (((sortedEntries (some contents) true).foldl (collectVersion model_dir model_name) ([], [])).1)
    = groups at hgrouped
  have hperm := List.perm_insertionSort notHigher groups
  have horder := List.pairwise_insertionSort notHigher groups
  change VersionsDescending contents (groups.insertionSort notHigher)
  have hchosen : ∀ group ∈ groups.insertionSort notHigher, group.1 = canonicalVersion (group.2.headD "") ∧
      ChosenDirectory contents (versionNumber group.1) (group.2.headD "") :=
    fun group hgroup => hgrouped.chosen (hperm.mem_iff.mp hgroup)
  have hnumeric : ∀ group ∈ groups.insertionSort notHigher, isNumericVersion group.1 = true := by
    intro group hgroup
    rw [(hchosen group hgroup).1]
    exact canonicalVersion_isNumeric (hchosen group hgroup).2.1.2.1
  refine ⟨?_, hchosen, ?_⟩
  · have hdistinct : (groups.insertionSort notHigher).Pairwise (fun first second => first.1 ≠ second.1) := by
      apply (hperm.pairwise_iff (fun hne => Ne.symm hne)).mpr
      exact hgrouped.keys.imp (fun hlt => ne_of_lt hlt)
    apply (horder.and hdistinct).imp_of_mem
    rintro first second hfirst hsecond ⟨hnot, hne⟩
    rw [notHigher, isHigherVersion_iff (hnumeric second hsecond) (hnumeric first hfirst), not_lt] at hnot
    refine lt_of_le_of_ne hnot ?_
    intro hnumber
    apply hne
    rw [(hchosen first hfirst).1, (hchosen second hsecond).1,
      canonicalVersion_eq_iff (hchosen first hfirst).2.1.2.1 (hchosen second hsecond).2.1.2.1,
      (hchosen first hfirst).2.1.2.2, (hchosen second hsecond).2.1.2.2, hnumber]
  · intro raw hraw hrawNumeric
    have hlisted : raw ∈ (sortedEntries (some contents) true).filter (fun name => isNumericVersion name) := by
      simp [hraw, hrawNumeric]
    obtain ⟨group, hgroup, hkey⟩ := hgrouped.covered raw hlisted
    exact ⟨group, hperm.mem_iff.mpr hgroup, by rw [hkey, versionNumber_canonicalVersion]⟩

end neuriplo.repository
