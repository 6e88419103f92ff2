import NeuriploRuntime.Server.RouteGrammar

open neuriplo.http stream

namespace neuriplo.server.routing

/-- The targets for which another method is told apart from an unknown path. -/
def Target.checksMethod : Target → Bool
  | .modelMetadata _ _ | .modelReady _ _ | .inferDefault _ | .infer _ _ => true
  | .repositoryIndex | .repositoryLoad _ | .repositoryUnload _ => true
  | _ => false

/-- The request is turned away for its method. -/
def MethodNotAllowed (answer : Except RouteError Target) : Prop :=
  ∃ message, answer = .error (methodNotAllowed message)

/-- A model's routes tell a wrong method from an unknown path. -/
theorem ModelRoute.checksMethod {method suffix model_name : List UInt8} {target : Target}
    (hroute : ModelRoute method suffix model_name target) : target.checksMethod = true := by
  cases hroute <;> rfl

/-- The admin routes of a model do not tell a wrong method from an unknown path. -/
theorem AdminRoute.checksMethod {method suffix model_name : List UInt8} {target : Target}
    (hroute : AdminRoute method suffix model_name target) : target.checksMethod = false := by
  cases hroute <;> rfl

/-- Every suffix of a model's route has a route. -/
theorem exists_modelRoute_of_isModelSuffix {rest : List UInt8} (hrest : isModelSuffix rest = true)
    (model_name : List UInt8) :
    (∃ other target, ModelRoute other rest model_name target) ∧
      ∀ version, 47 ∉ version →
        ∃ other target, ModelRoute other (octets "/versions/" ++ (version ++ rest)) model_name target := by
  simp only [isModelSuffix, Bool.or_eq_true, decide_eq_true_eq] at hrest
  obtain (rfl | rfl) | rfl := hrest
  · refine ⟨⟨_, _, .metadata model_name⟩, ?_⟩
    intro version hversion
    rw [List.append_nil]
    exact ⟨_, _, .versionMetadata model_name hversion⟩
  · refine ⟨⟨_, _, .ready model_name⟩, ?_⟩
    intro version hversion
    rw [← List.append_assoc]
    exact ⟨_, _, .versionReady model_name hversion⟩
  · refine ⟨⟨_, _, .infer model_name⟩, ?_⟩
    intro version hversion
    rw [← List.append_assoc]
    exact ⟨_, _, .versionInfer model_name hversion⟩

theorem not_methodNotAllowed_ok {target : Target} : ¬ MethodNotAllowed (.ok target) := by
  rintro ⟨message, ⟨⟩⟩

theorem not_methodNotAllowed_of_status {error : RouteError} (hstatus : error.status ≠ 405) :
    ¬ MethodNotAllowed (.error error) := by
  rintro ⟨message, herror⟩
  cases herror
  exact hstatus rfl

/-- A model's route refuses a method exactly when another method would be
served. -/
theorem handleModel_methodNotAllowed_iff {method model_name suffix : List UInt8} :
    MethodNotAllowed (handleModel method model_name suffix) ↔
      (∀ target, ¬ ModelRoute method suffix model_name target) ∧
        ∃ other target, ModelRoute other suffix model_name target := by
  constructor
  · intro hrefused
    constructor
    · intro target hroute
      rw [handleModel_ok_iff.mpr hroute] at hrefused
      exact not_methodNotAllowed_ok hrefused
    · obtain ⟨version, rest, hversion, hrest, rfl⟩ | hplain := version_or_plain suffix
      · rw [handleModel_of_version hversion hrest] at hrefused
        split_ifs at hrefused with _ _ _ hsuffix
        · exact absurd hrefused not_methodNotAllowed_ok
        · exact absurd hrefused not_methodNotAllowed_ok
        · exact absurd hrefused not_methodNotAllowed_ok
        · exact (exists_modelRoute_of_isModelSuffix hsuffix model_name).2 version hversion
        · exact absurd hrefused (not_methodNotAllowed_of_status (by decide))
      · rw [handleModel_of_plain hplain] at hrefused
        split_ifs at hrefused with _ _ _ hsuffix
        · exact absurd hrefused not_methodNotAllowed_ok
        · exact absurd hrefused not_methodNotAllowed_ok
        · exact absurd hrefused not_methodNotAllowed_ok
        · exact (exists_modelRoute_of_isModelSuffix hsuffix model_name).1
        · exact absurd hrefused (not_methodNotAllowed_of_status (by decide))
  · rintro ⟨hnone, other, target, hroute⟩
    -- the suffix is one of a model's, with a version before it or without
    have hrefused (answer : handleModel method model_name suffix = .error routeNotAllowed ∨
        ∃ target, handleModel method model_name suffix = .ok target) :
        MethodNotAllowed (handleModel method model_name suffix) := by
      obtain herror | ⟨target, hok⟩ := answer
      · exact ⟨_, herror⟩
      · exact absurd (handleModel_ok_iff.mp hok) (hnone target)
    apply hrefused
    have hversioned {version rest : List UInt8} (hversion : 47 ∉ version) (hrest : Starts 47 rest)
        (hsuffix : isModelSuffix rest = true) :
        handleModel method model_name (octets "/versions/" ++ (version ++ rest)) = .error routeNotAllowed ∨
          ∃ target, handleModel method model_name (octets "/versions/" ++ (version ++ rest)) = .ok target := by
      rw [handleModel_of_version hversion hrest]
      split_ifs
      · exact .inr ⟨_, rfl⟩
      · exact .inr ⟨_, rfl⟩
      · exact .inr ⟨_, rfl⟩
      · exact .inl rfl
    have hplain (hplain : ¬ octets "/versions/" <+: suffix) (hsuffix : isModelSuffix suffix = true) :
        handleModel method model_name suffix = .error routeNotAllowed ∨
          ∃ target, handleModel method model_name suffix = .ok target := by
      rw [handleModel_of_plain hplain]
      split_ifs
      · exact .inr ⟨_, rfl⟩
      · exact .inr ⟨_, rfl⟩
      · exact .inr ⟨_, rfl⟩
      · exact .inl rfl
    cases hroute with
    | metadata => exact hplain (by decide) rfl
    | ready => exact hplain (by decide) rfl
    | infer => exact hplain (by decide) rfl
    | @versionMetadata _ version hversion =>
      have hanswer := hversioned hversion (.inl rfl) rfl
      rwa [List.append_nil] at hanswer
    | versionReady _ hversion =>
      rw [List.append_assoc]
      exact hversioned hversion starts_ready rfl
    | versionInfer _ hversion =>
      rw [List.append_assoc]
      exact hversioned hversion starts_infer rfl

/-- The admin interface never refuses a method as such. -/
theorem handleAdmin_not_methodNotAllowed (method path : List UInt8) : ¬ MethodNotAllowed (handleAdmin method path) := by
  have hnotFound : ¬ MethodNotAllowed (.error adminNotFound) := not_methodNotAllowed_of_status (by decide)
  have hmodel (model_name suffix : List UInt8) : ¬ MethodNotAllowed (handleAdminModel method model_name suffix) := by
    simp only [handleAdminModel]
    split_ifs
    · exact not_methodNotAllowed_ok
    · exact not_methodNotAllowed_ok
    · exact not_methodNotAllowed_of_status (by decide)
    · exact not_methodNotAllowed_ok
    · exact hnotFound
    · exact hnotFound
  simp only [handleAdmin]
  split_ifs <;> first | exact hnotFound | exact not_methodNotAllowed_ok | exact hmodel _ _

/-- The repository refuses a method exactly when POST would be served. -/
theorem handleRepository_methodNotAllowed_iff {method path : List UInt8} :
    MethodNotAllowed (handleRepository method path) ↔
      method ≠ octets "POST" ∧ ∃ target, handleRepository (octets "POST") path = .ok target := by
  obtain rfl | ⟨model_name, action, hname, rfl⟩ | hother := repository_cases path
  · have hpost : handleRepository (octets "POST") repositoryIndexPath = .ok .repositoryIndex := rfl
    by_cases hmethod : method = octets "POST"
    · rw [hmethod, hpost]
      exact iff_of_false not_methodNotAllowed_ok fun hother => hother.1 rfl
    · rw [hpost, handleRepository, if_pos rfl, if_pos hmethod]
      exact iff_of_true ⟨_, rfl⟩ ⟨hmethod, _, rfl⟩
  · rw [handleRepository_of_model hname, handleRepository_of_model hname]
    by_cases hne : model_name = []
    · simp only [hne, ↓reduceIte]
      refine iff_of_false (not_methodNotAllowed_of_status (by decide)) ?_
      rintro ⟨-, target, ⟨⟩⟩
    · by_cases haction : action ≠ octets "load" ∧ action ≠ octets "unload"
      · rw [if_neg hne, if_pos haction, if_neg hne, if_pos haction]
        refine iff_of_false (not_methodNotAllowed_of_status (by decide)) ?_
        rintro ⟨-, target, ⟨⟩⟩
      · rw [if_neg hne, if_neg haction, if_neg hne, if_neg haction, if_neg (not_not.mpr rfl)]
        split_ifs with hmethod hunload
        · exact iff_of_true ⟨_, rfl⟩ ⟨hmethod, _, rfl⟩
        · exact iff_of_true ⟨_, rfl⟩ ⟨hmethod, _, rfl⟩
        · exact iff_of_false not_methodNotAllowed_ok fun hpost => hmethod hpost.1
        · exact iff_of_false not_methodNotAllowed_ok fun hpost => hmethod hpost.1
  · rw [hother method, hother]
    refine iff_of_false (not_methodNotAllowed_of_status (by decide)) ?_
    rintro ⟨-, target, ⟨⟩⟩

/-- The paths below the repository's and below the admin interface. -/
theorem Addresses.path_cases {method path : List UInt8} {target : Target} (haddresses : Addresses method path target)
    (hchecks : target.checksMethod = true) :
    (∃ model_name suffix, path = modelsPrefix ++ (model_name ++ suffix) ∧ 47 ∉ model_name ∧ Starts 47 suffix ∧
      model_name ++ suffix ≠ [] ∧ ModelRoute method suffix model_name target) ∨
    (repositoryPrefix <+: path ∧ method = octets "POST") := by
  have hmodels : repositoryPrefix <+: repositoryModelsPrefix := by decide
  cases haddresses with
  | fixed hroute =>
    have hfixed : ∀ route ∈ fixedRoutes, route.2.2.checksMethod = false := by decide
    rw [hfixed _ hroute] at hchecks
    cases hchecks
  | model hname htail hroute => exact .inl ⟨_, _, rfl, hname, hroute.starts, htail, hroute⟩
  | repositoryIndex => exact .inr ⟨by decide, rfl⟩
  | repositoryLoad => exact .inr ⟨hmodels.trans (List.prefix_append _ _), rfl⟩
  | repositoryUnload => exact .inr ⟨hmodels.trans (List.prefix_append _ _), rfl⟩
  | adminList => cases hchecks
  | adminLoad => cases hchecks
  | admin separator hname htail hroute =>
    rw [hroute.checksMethod] at hchecks
    cases hchecks

/-- What `handle` turns away for its method: a request for no target, on a path
that is a model's or the repository's under another method. -/
theorem method_not_allowed_iff {method path : List UInt8} :
    MethodNotAllowed (handle method path) ↔
      method ≠ [] ∧ (∀ target, ¬ Addresses method path target) ∧
        ∃ other target, Addresses other path target ∧ target.checksMethod = true := by
  constructor
  · intro hrefused
    have hmethod : method ≠ [] := by
      rintro rfl
      exact not_methodNotAllowed_of_status (by decide) hrefused
    refine ⟨hmethod, ?_, ?_⟩
    · intro target haddresses
      rw [handle_of_addresses haddresses] at hrefused
      exact not_methodNotAllowed_ok hrefused
    · by_cases hrepository : repositoryPrefix <+: path
      · rw [handle_of_repository hmethod hrepository, handleRepository_methodNotAllowed_iff] at hrefused
        obtain ⟨-, target, hpost⟩ := hrefused
        refine ⟨octets "POST", target, handleRepository_addresses hpost, ?_⟩
        unfold handleRepository at hpost
        simp only at hpost
        split_ifs at hpost <;> cases hpost <;> rfl
      · by_cases hadmin : adminPrefix <+: path
        · rw [handle_of_admin hmethod hadmin] at hrefused
          exact absurd hrefused (handleAdmin_not_methodNotAllowed method path)
        · rw [handle, if_neg hmethod] at hrefused
          split at hrefused
          · exact absurd hrefused not_methodNotAllowed_ok
          · rw [if_neg hadmin, if_neg hrepository] at hrefused
            unfold extractModelRouteTail at hrefused
            by_cases hstart : modelsPrefix <+: path
            · obtain ⟨tail, rfl⟩ := hstart
              simp only [List.prefix_append, ↓reduceIte, List.drop_left] at hrefused
              split at hrefused
              · exact absurd hrefused (not_methodNotAllowed_of_status (by decide))
              · rename_i htail
                obtain ⟨-, other, target, hroute⟩ := handleModel_methodNotAllowed_iff.mp hrefused
                rw [← segment_append_behind 47 tail] at htail ⊢
                exact ⟨other, target, .model (separator_not_mem_segment 47 tail) htail hroute, hroute.checksMethod⟩
            · simp only [if_neg hstart, ↓reduceIte] at hrefused
              exact absurd hrefused (not_methodNotAllowed_of_status (by decide))
  · rintro ⟨hmethod, hnone, other, target, haddresses, hchecks⟩
    obtain ⟨model_name, suffix, rfl, hname, hsuffix, htail, hroute⟩ | ⟨hstart, rfl⟩ := haddresses.path_cases hchecks
    · rw [handle_of_model hmethod hname hsuffix htail, handleModel_methodNotAllowed_iff]
      exact ⟨fun target hroute => hnone target (.model hname htail hroute), other, target, hroute⟩
    · have hpost := handle_of_addresses haddresses
      rw [handle_of_repository (by decide) hstart] at hpost
      rw [handle_of_repository hmethod hstart, handleRepository_methodNotAllowed_iff]
      refine ⟨?_, target, hpost⟩
      rintro rfl
      exact hnone target haddresses

end neuriplo.server.routing
