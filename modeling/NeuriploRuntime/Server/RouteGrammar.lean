import NeuriploRuntime.Server.Routes

open neuriplo.http stream

namespace neuriplo.server.routing

/-- The routes below a model's name. -/
inductive ModelRoute : (method suffix : List UInt8) → (model_name : List UInt8) → Target → Prop
  | metadata (model_name : List UInt8) : ModelRoute (octets "GET") [] model_name (.modelMetadata model_name [])
  | ready (model_name : List UInt8) : ModelRoute (octets "GET") (octets "/ready") model_name (.modelReady model_name [])
  | infer (model_name : List UInt8) : ModelRoute (octets "POST") (octets "/infer") model_name (.inferDefault model_name)
  | versionMetadata (model_name : List UInt8) {version : List UInt8} (hversion : 47 ∉ version) :
      ModelRoute (octets "GET") (octets "/versions/" ++ version) model_name (.modelMetadata model_name version)
  | versionReady (model_name : List UInt8) {version : List UInt8} (hversion : 47 ∉ version) :
      ModelRoute (octets "GET") (octets "/versions/" ++ version ++ octets "/ready") model_name
        (.modelReady model_name version)
  | versionInfer (model_name : List UInt8) {version : List UInt8} (hversion : 47 ∉ version) :
      ModelRoute (octets "POST") (octets "/versions/" ++ version ++ octets "/infer") model_name
        (.infer model_name version)

/-- The routes below a model's name in the admin interface. A slash behind the
name alone is let pass. -/
inductive AdminRoute : (method suffix : List UInt8) → (model_name : List UInt8) → Target → Prop
  | unload (model_name : List UInt8) : AdminRoute (octets "DELETE") [] model_name (.adminUnload model_name)
  | unloadSlash (model_name : List UInt8) :
      AdminRoute (octets "DELETE") (octets "/") model_name (.adminUnload model_name)
  | reload (model_name : List UInt8) :
      AdminRoute (octets "POST") (octets "/reload") model_name (.adminReload model_name)
  | activate (model_name : List UInt8) {version : List UInt8} (hversion : version ≠ []) :
      AdminRoute (octets "POST") (octets "/versions/" ++ version ++ activateSuffix) model_name
        (.adminActivate model_name version)

/-- The requests that are for a target. -/
inductive Addresses : (method path : List UInt8) → Target → Prop
  | fixed {method path : List UInt8} {target : Target} (hroute : (method, path, target) ∈ fixedRoutes) :
      Addresses method path target
  | model {method model_name suffix : List UInt8} {target : Target} (hname : 47 ∉ model_name)
      (htail : model_name ++ suffix ≠ []) (hroute : ModelRoute method suffix model_name target) :
      Addresses method (modelsPrefix ++ (model_name ++ suffix)) target
  | repositoryIndex : Addresses (octets "POST") repositoryIndexPath .repositoryIndex
  | repositoryLoad {model_name : List UInt8} (hname : 47 ∉ model_name) (hne : model_name ≠ []) :
      Addresses (octets "POST") (repositoryModelsPrefix ++ (model_name ++ octets "/load")) (.repositoryLoad model_name)
  | repositoryUnload {model_name : List UInt8} (hname : 47 ∉ model_name) (hne : model_name ≠ []) :
      Addresses (octets "POST") (repositoryModelsPrefix ++ (model_name ++ octets "/unload"))
        (.repositoryUnload model_name)
  | adminList : Addresses (octets "GET") adminModels .adminList
  | adminLoad : Addresses (octets "POST") (adminModels ++ octets "/load") .adminLoad
  | admin (separator : UInt8) {method model_name suffix : List UInt8} {target : Target} (hname : 47 ∉ model_name)
      (htail : model_name ++ suffix ≠ []) (hroute : AdminRoute method suffix model_name target)
      (hother : ¬ (method = octets "POST" ∧ separator :: (model_name ++ suffix) = octets "/load")) :
      Addresses method (adminModels ++ separator :: (model_name ++ suffix)) target

theorem starts_ready : Starts 47 (octets "/ready") := .inr ⟨octets "ready", by decide⟩

theorem starts_infer : Starts 47 (octets "/infer") := .inr ⟨octets "infer", by decide⟩

theorem starts_versions (rest : List UInt8) : Starts 47 (octets "/versions/" ++ rest) :=
  .inr ⟨octets "versions/" ++ rest, rfl⟩

/-- What follows a model's name starts with a slash, or is nothing. -/
theorem ModelRoute.starts {method suffix model_name : List UInt8} {target : Target}
    (hroute : ModelRoute method suffix model_name target) : Starts 47 suffix := by
  cases hroute with
  | metadata => exact .inl rfl
  | ready => exact starts_ready
  | infer => exact starts_infer
  | versionMetadata => exact starts_versions _
  | versionReady | versionInfer =>
    rw [List.append_assoc]
    exact starts_versions _

theorem ModelRoute.method_ne {method suffix model_name : List UInt8} {target : Target}
    (hroute : ModelRoute method suffix model_name target) : method ≠ [] := by
  cases hroute <;> decide

/-- A suffix has a version in it, or does not start as one that has. -/
theorem version_or_plain (suffix : List UInt8) :
    (∃ version rest, 47 ∉ version ∧ Starts 47 rest ∧ suffix = octets "/versions/" ++ (version ++ rest)) ∨
      ¬ octets "/versions/" <+: suffix := by
  by_cases hstart : octets "/versions/" <+: suffix
  · obtain ⟨tail, rfl⟩ := hstart
    refine .inl ⟨segment 47 tail, behind 47 tail, separator_not_mem_segment 47 tail, starts_behind 47 tail, ?_⟩
    rw [segment_append_behind]
  · exact .inr hstart

/-- A version ends at the next slash. -/
theorem parseVersionedRoute_append {version rest : List UInt8} (hversion : 47 ∉ version) (hrest : Starts 47 rest) :
    parseVersionedRoute (octets "/versions/" ++ (version ++ rest)) = { matched := true, version, suffix := rest } := by
  obtain ⟨hsegment, hbehind⟩ := segment_append hversion hrest
  rw [parseVersionedRoute, if_pos (List.prefix_append _ _), List.drop_left]
  simp only [hsegment, hbehind]

/-- The routes below a version of a model. -/
theorem handleModel_of_version {method model_name version rest : List UInt8} (hversion : 47 ∉ version)
    (hrest : Starts 47 rest) :
    handleModel method model_name (octets "/versions/" ++ (version ++ rest)) =
      if method = octets "GET" ∧ rest = [] then .ok (.modelMetadata model_name version)
      else if method = octets "GET" ∧ rest = octets "/ready" then .ok (.modelReady model_name version)
      else if method = octets "POST" ∧ rest = octets "/infer" then .ok (.infer model_name version)
      else if isModelSuffix rest then .error routeNotAllowed
      else .error (notFound "route not found") := by
  have hempty : octets "/versions/" ++ (version ++ rest) ≠ [] := append_ne_of_not_prefix (by decide) _
  have hready : octets "/versions/" ++ (version ++ rest) ≠ octets "/ready" := append_ne_of_not_prefix (by decide) _
  have hinfer : octets "/versions/" ++ (version ++ rest) ≠ octets "/infer" := append_ne_of_not_prefix (by decide) _
  have hplain : isModelSuffix (octets "/versions/" ++ (version ++ rest)) = false := by
    simp only [isModelSuffix, hempty, hready, hinfer, decide_false, Bool.or_self]
  simp only [handleModel, parseVersionedRoute_append hversion hrest, hempty, hready, hinfer, hplain, and_false,
    ↓reduceIte, true_and, Bool.false_eq_true]

/-- The routes below a model without a version. -/
theorem handleModel_of_plain {method model_name suffix : List UInt8} (hplain : ¬ octets "/versions/" <+: suffix) :
    handleModel method model_name suffix =
      if method = octets "GET" ∧ suffix = [] then .ok (.modelMetadata model_name [])
      else if method = octets "GET" ∧ suffix = octets "/ready" then .ok (.modelReady model_name [])
      else if method = octets "POST" ∧ suffix = octets "/infer" then .ok (.inferDefault model_name)
      else if isModelSuffix suffix then .error routeNotAllowed
      else .error (notFound "route not found") := by
  have hparsed : parseVersionedRoute suffix = {} := if_neg hplain
  simp only [handleModel, hparsed, Bool.false_eq_true, false_and, ↓reduceIte]

/-- The routes of models are those of the grammar. -/
theorem handleModel_ok_iff {method model_name suffix : List UInt8} {target : Target} :
    handleModel method model_name suffix = .ok target ↔ ModelRoute method suffix model_name target := by
  constructor
  · intro hhandle
    obtain ⟨version, rest, hversion, hrest, rfl⟩ | hplain := version_or_plain suffix
    · rw [handleModel_of_version hversion hrest] at hhandle
      rw [← List.append_assoc]
      split_ifs at hhandle with hmetadata hready hinfer
      · obtain ⟨rfl, rfl⟩ := hmetadata
        cases hhandle
        rw [List.append_nil]
        exact .versionMetadata model_name hversion
      · obtain ⟨rfl, rfl⟩ := hready
        cases hhandle
        exact .versionReady model_name hversion
      · obtain ⟨rfl, rfl⟩ := hinfer
        cases hhandle
        exact .versionInfer model_name hversion
    · rw [handleModel_of_plain hplain] at hhandle
      split_ifs at hhandle with hmetadata hready hinfer
      · obtain ⟨rfl, rfl⟩ := hmetadata
        cases hhandle
        exact .metadata model_name
      · obtain ⟨rfl, rfl⟩ := hready
        cases hhandle
        exact .ready model_name
      · obtain ⟨rfl, rfl⟩ := hinfer
        cases hhandle
        exact .infer model_name
  · intro hroute
    cases hroute with
    | metadata => rfl
    | ready => rfl
    | infer => rfl
    | @versionMetadata _ version hversion =>
      have hhandle := @handleModel_of_version (octets "GET") model_name version [] hversion (.inl rfl)
      rw [List.append_nil] at hhandle
      rw [hhandle, if_pos ⟨rfl, rfl⟩]
    | versionReady _ hversion =>
      rw [List.append_assoc, handleModel_of_version hversion starts_ready]
      rfl
    | versionInfer _ hversion =>
      rw [List.append_assoc, handleModel_of_version hversion starts_infer]
      rfl

/-- The routes below a model of the repository. -/
theorem handleRepository_of_model {method model_name action : List UInt8} (hname : 47 ∉ model_name) :
    handleRepository method (repositoryModelsPrefix ++ (model_name ++ 47 :: action)) =
      if model_name = [] then .error (invalidArgument "model name is required")
      else if action ≠ octets "load" ∧ action ≠ octets "unload" then .error repositoryNotFound
      else if method ≠ octets "POST" then .error (methodNotAllowed "method not allowed: use POST")
      else if action = octets "unload" then .ok (.repositoryUnload model_name)
      else .ok (.repositoryLoad model_name) := by
  have hindex : repositoryModelsPrefix ++ (model_name ++ 47 :: action) ≠ repositoryIndexPath :=
    append_ne_of_not_prefix (by decide) _
  obtain ⟨hsegment, hbehind⟩ := segment_append hname (.inr ⟨action, rfl⟩)
  rw [handleRepository, if_neg hindex, if_neg (not_not.mpr (List.prefix_append _ _)), List.drop_left]
  simp only [hsegment, hbehind, List.cons_ne_nil, ↓reduceIte, List.drop_one, List.tail_cons]

/-- What the repository answers a path with that is none of its routes. -/
theorem handleRepository_other {method path : List UInt8} (hindex : path ≠ repositoryIndexPath)
    (hmodel : ∀ model_name action, 47 ∉ model_name → path ≠ repositoryModelsPrefix ++ (model_name ++ 47 :: action)) :
    handleRepository method path = .error repositoryNotFound := by
  rw [handleRepository, if_neg hindex]
  split
  · rfl
  · rename_i hstart
    obtain ⟨tail, rfl⟩ := not_not.mp hstart
    rw [List.drop_left]
    obtain hnone | ⟨action, hbehind⟩ := starts_behind 47 tail
    · simp only [hnone, ↓reduceIte]
    · apply absurd _ (hmodel (segment 47 tail) action (separator_not_mem_segment 47 tail))
      rw [← hbehind, segment_append_behind]

/-- A path is the index, a model with an action, or nothing that the repository knows. -/
theorem repository_cases (path : List UInt8) :
    path = repositoryIndexPath ∨
      (∃ model_name action, 47 ∉ model_name ∧ path = repositoryModelsPrefix ++ (model_name ++ 47 :: action)) ∨
      ∀ method, handleRepository method path = .error repositoryNotFound := by
  by_cases hindex : path = repositoryIndexPath
  · exact .inl hindex
  · by_cases hmodel : ∃ model_name action, 47 ∉ model_name ∧
        path = repositoryModelsPrefix ++ (model_name ++ 47 :: action)
    · exact .inr (.inl hmodel)
    · refine .inr (.inr fun method => handleRepository_other hindex ?_)
      intro model_name action hname hpath
      exact hmodel ⟨model_name, action, hname, hpath⟩

/-- The repository answers to the grammar's routes only. -/
theorem handleRepository_addresses {method path : List UInt8} {target : Target}
    (hhandle : handleRepository method path = .ok target) : Addresses method path target := by
  obtain rfl | ⟨model_name, action, hname, rfl⟩ | hother := repository_cases path
  · rw [handleRepository, if_pos rfl] at hhandle
    split_ifs at hhandle with hmethod
    cases hhandle
    rw [not_not.mp hmethod]
    exact .repositoryIndex
  · rw [handleRepository_of_model hname] at hhandle
    split_ifs at hhandle with hne haction hmethod hunload
    · cases hhandle
      subst hunload
      rw [not_not.mp hmethod]
      exact .repositoryUnload hname hne
    · cases hhandle
      have hload : action = octets "load" := by
        by_contra hload
        exact haction ⟨hload, hunload⟩
      subst hload
      rw [not_not.mp hmethod]
      exact .repositoryLoad hname hne
  · rw [hother method] at hhandle
    cases hhandle

/-- What follows a model's name in an admin route starts with a slash, or is
nothing. -/
theorem AdminRoute.starts {method suffix model_name : List UInt8} {target : Target}
    (hroute : AdminRoute method suffix model_name target) : Starts 47 suffix := by
  cases hroute with
  | unload => exact .inl rfl
  | unloadSlash => exact .inr ⟨[], by decide⟩
  | reload => exact .inr ⟨octets "reload", by decide⟩
  | activate =>
    rw [List.append_assoc]
    exact starts_versions _

theorem AdminRoute.method_ne {method suffix model_name : List UInt8} {target : Target}
    (hroute : AdminRoute method suffix model_name target) : method ≠ [] := by
  cases hroute <;> decide

theorem versions_eq_cons : octets "/versions/" = 47 :: octets "versions/" := by decide

/-- A version that is named is activated. -/
theorem handleAdminModel_of_activate {model_name version : List UInt8} (hversion : version ≠ []) :
    handleAdminModel (octets "POST") model_name (octets "versions/" ++ (version ++ activateSuffix)) =
      .ok (.adminActivate model_name version) := by
  have hreload : octets "versions/" ++ (version ++ activateSuffix) ≠ octets "reload" :=
    append_ne_of_not_prefix (by decide) _
  have hempty : octets "versions/" ++ (version ++ activateSuffix) ≠ [] := append_ne_of_not_prefix (by decide) _
  simp only [handleAdminModel, hreload, hempty, and_false, ↓reduceIte, true_and, List.prefix_append, List.drop_left,
    List.suffix_append, not_true_eq_false, List.length_append, Nat.add_sub_cancel, List.take_left, hversion]

/-- The admin routes of a model are those of the grammar. -/
theorem handleAdminModel_ok_iff {method model_name suffix : List UInt8} {target : Target} (hsuffix : Starts 47 suffix) :
    handleAdminModel method model_name (suffix.drop 1) = .ok target ↔ AdminRoute method suffix model_name target := by
  constructor
  · intro hhandle
    have hcons {rest : List UInt8} (hrest : suffix.drop 1 = rest) (hne : rest ≠ []) : suffix = 47 :: rest := by
      obtain rfl | ⟨rest', rfl⟩ := hsuffix
      · exact absurd hrest.symm hne
      · rw [← hrest, List.drop_one, List.tail_cons]
    simp only [handleAdminModel] at hhandle
    split_ifs at hhandle with hunload hreload hversions hactivate hempty
    · obtain ⟨rfl, hrest⟩ := hunload
      cases hhandle
      obtain rfl | ⟨rest, rfl⟩ := hsuffix
      · exact .unload model_name
      · rw [List.drop_one, List.tail_cons] at hrest
        rw [hrest]
        exact .unloadSlash model_name
    · obtain ⟨rfl, hrest⟩ := hreload
      cases hhandle
      rw [hcons hrest (by decide)]
      exact .reload model_name
    · obtain ⟨rfl, tail, htail⟩ := hversions
      rw [← htail, List.drop_left] at hactivate hempty hhandle
      obtain ⟨version, hversion⟩ := hactivate
      subst hversion
      rw [List.length_append, Nat.add_sub_cancel, List.take_left] at hempty hhandle
      cases hhandle
      rw [hcons htail.symm (List.append_ne_nil_of_left_ne_nil (by decide) _), ← List.cons_append, ← versions_eq_cons,
        ← List.append_assoc]
      exact .activate model_name hempty
  · intro hroute
    cases hroute with
    | unload => rfl
    | unloadSlash => rfl
    | reload => rfl
    | activate _ hversion =>
      rw [versions_eq_cons, List.append_assoc, List.cons_append, List.drop_one, List.tail_cons]
      exact handleAdminModel_of_activate hversion

/-- What is behind the prefix of the admin interface. -/
theorem handleAdmin_of_tail {method model_name suffix : List UInt8} (separator : UInt8) (hname : 47 ∉ model_name)
    (hsuffix : Starts 47 suffix) (htail : model_name ++ suffix ≠ [])
    (hother : ¬ (method = octets "POST" ∧ separator :: (model_name ++ suffix) = octets "/load")) :
    handleAdmin method (adminModels ++ separator :: (model_name ++ suffix)) =
      handleAdminModel method model_name (suffix.drop 1) := by
  obtain ⟨hsegment, hbehind⟩ := segment_append hname hsuffix
  have hlist : adminModels ++ separator :: (model_name ++ suffix) ≠ adminModels := by simp
  have hload : ¬ (method = octets "POST" ∧
      adminModels ++ separator :: (model_name ++ suffix) = adminModels ++ octets "/load") := by
    rintro ⟨hmethod, hpath⟩
    exact hother ⟨hmethod, List.append_cancel_left hpath⟩
  have hlength : adminModels.length + 1 < (adminModels ++ separator :: (model_name ++ suffix)).length := by
    have hpos := List.length_pos_iff.mpr htail
    rw [List.length_append, List.length_cons]
    omega
  have hdrop : (adminModels ++ separator :: (model_name ++ suffix)).drop (adminModels.length + 1) =
      model_name ++ suffix := by
    rw [← List.drop_drop, List.drop_left, List.drop_one, List.tail_cons]
  rw [handleAdmin, if_neg (not_not.mpr (List.prefix_append _ _)), if_neg (fun hget => hlist hget.2), if_neg hload]
  simp only [if_pos hlength, hdrop, htail, ↓reduceIte, hsegment, hbehind]

/-- The admin interface answers to the grammar's routes only. -/
theorem handleAdmin_addresses {method path : List UInt8} {target : Target}
    (hhandle : handleAdmin method path = .ok target) : Addresses method path target := by
  by_cases hstart : adminModels <+: path
  · obtain ⟨tail, rfl⟩ := hstart
    by_cases hlist : method = octets "GET" ∧ adminModels ++ tail = adminModels
    · rw [handleAdmin, if_neg (not_not.mpr (List.prefix_append _ _)), if_pos hlist] at hhandle
      cases hhandle
      rw [hlist.1, hlist.2]
      exact .adminList
    · by_cases hload : method = octets "POST" ∧ adminModels ++ tail = adminModels ++ octets "/load"
      · rw [handleAdmin, if_neg (not_not.mpr (List.prefix_append _ _)), if_neg hlist, if_pos hload] at hhandle
        cases hhandle
        rw [hload.1, hload.2]
        exact .adminLoad
      · by_cases htail : 1 < tail.length
        · obtain ⟨separator, rest, rfl⟩ : ∃ separator rest, tail = separator :: rest :=
            List.exists_cons_of_ne_nil (by rintro rfl; simp at htail)
          have hne : rest ≠ [] := by
            rintro rfl
            simp at htail
          rw [← segment_append_behind 47 rest] at hhandle hload hne ⊢
          rw [handleAdmin_of_tail separator (separator_not_mem_segment 47 rest) (starts_behind 47 rest) hne
            (fun hpost => hload ⟨hpost.1, by rw [hpost.2]⟩), handleAdminModel_ok_iff (starts_behind 47 rest)] at hhandle
          exact .admin separator (separator_not_mem_segment 47 rest) hne hhandle
            (fun hpost => hload ⟨hpost.1, by rw [hpost.2]⟩)
        · have hshort : ¬ adminModels.length + 1 < (adminModels ++ tail).length := by
            rw [List.length_append]
            omega
          rw [handleAdmin, if_neg (not_not.mpr (List.prefix_append _ _)), if_neg hlist, if_neg hload] at hhandle
          simp only [if_neg hshort, ↓reduceIte] at hhandle
          cases hhandle
  · rw [handleAdmin, if_pos hstart] at hhandle
    cases hhandle

/-- A route of fixed text is answered before any other is looked at. -/
theorem fixedRoutes_unique {method path : List UInt8} {target : Target}
    (hroute : (method, path, target) ∈ fixedRoutes) : handle method path = .ok target := by
  simp only [fixedRoutes, List.mem_cons, List.not_mem_nil, or_false, Prod.mk.injEq] at hroute
  rcases hroute with ⟨rfl, rfl, rfl⟩ | ⟨rfl, rfl, rfl⟩ | ⟨rfl, rfl, rfl⟩ | ⟨rfl, rfl, rfl⟩ | ⟨rfl, rfl, rfl⟩ |
    ⟨rfl, rfl, rfl⟩ | ⟨rfl, rfl, rfl⟩ <;> rfl

/-- A path that starts as no fixed one does is not looked up in vain. -/
theorem handle_of_not_fixed {method path start : List UInt8} (hmethod : method ≠ []) (hstart : start <+: path)
    (hfixed : ∀ route ∈ fixedRoutes, ¬ start <+: route.2.1) :
    handle method path =
      if adminPrefix <+: path then handleAdmin method path
      else if repositoryPrefix <+: path then handleRepository method path
      else
        let route_tail := extractModelRouteTail path
        if route_tail = [] then .error (notFound "route not found")
        else handleModel method (segment 47 route_tail) (behind 47 route_tail) := by
  have hnone : fixedRoutes.find? (fun route => route.1 = method && route.2.1 = path) = none := by
    rw [List.find?_eq_none]
    intro route hroute hfound
    simp only [Bool.and_eq_true, decide_eq_true_eq] at hfound
    exact hfixed route hroute (hfound.2 ▸ hstart)
  rw [handle, if_neg hmethod]
  simp only [hnone]

/-- A path below the models is routed as one. -/
theorem handle_of_model {method model_name suffix : List UInt8} (hmethod : method ≠ []) (hname : 47 ∉ model_name)
    (hsuffix : Starts 47 suffix) (htail : model_name ++ suffix ≠ []) :
    handle method (modelsPrefix ++ (model_name ++ suffix)) = handleModel method model_name suffix := by
  obtain ⟨hsegment, hbehind⟩ := segment_append hname hsuffix
  have hadmin : ¬ adminPrefix <+: modelsPrefix ++ (model_name ++ suffix) :=
    not_prefix_append (by decide) (by decide) _
  have hrepository : ¬ repositoryPrefix <+: modelsPrefix ++ (model_name ++ suffix) := by
    intro hstart
    have hshort : octets "/v2/r" <+: modelsPrefix ++ (model_name ++ suffix) :=
      (by decide : octets "/v2/r" <+: repositoryPrefix).trans hstart
    exact not_prefix_append (by decide) (by decide) _ hshort
  rw [handle_of_not_fixed hmethod (List.prefix_append modelsPrefix _) (by decide), if_neg hadmin, if_neg hrepository]
  simp only [extractModelRouteTail, List.prefix_append, ↓reduceIte, List.drop_left, htail, hsegment, hbehind]

/-- A path below the repository is routed as one. -/
theorem handle_of_repository {method path : List UInt8} (hmethod : method ≠ []) (hpath : repositoryPrefix <+: path) :
    handle method path = handleRepository method path := by
  obtain ⟨rest, rfl⟩ := hpath
  have hadmin : ¬ adminPrefix <+: repositoryPrefix ++ rest := not_prefix_append (by decide) (by decide) _
  rw [handle_of_not_fixed hmethod (List.prefix_append repositoryPrefix _) (by decide), if_neg hadmin,
    if_pos (List.prefix_append _ _)]

/-- A path below the admin interface is routed as one. -/
theorem handle_of_admin {method path : List UInt8} (hmethod : method ≠ []) (hpath : adminPrefix <+: path) :
    handle method path = handleAdmin method path := by
  rw [handle_of_not_fixed hmethod hpath (by decide), if_pos hpath]

/-- What is handled is in the grammar. -/
theorem handle_addresses {method path : List UInt8} {target : Target} (hhandle : handle method path = .ok target) :
    Addresses method path target := by
  unfold handle at hhandle
  split at hhandle
  · cases hhandle
  · split at hhandle
    · rename_i route hfound
      cases hhandle
      have hsame := List.find?_some hfound
      simp only [Bool.and_eq_true, decide_eq_true_eq] at hsame
      obtain ⟨rfl, rfl⟩ := hsame
      exact .fixed (List.mem_of_find?_eq_some hfound)
    · split at hhandle
      · exact handleAdmin_addresses hhandle
      · split at hhandle
        · exact handleRepository_addresses hhandle
        · unfold extractModelRouteTail at hhandle
          by_cases hstart : modelsPrefix <+: path
          · obtain ⟨tail, rfl⟩ := hstart
            simp only [List.prefix_append, ↓reduceIte, List.drop_left] at hhandle
            split at hhandle
            · cases hhandle
            · rename_i htail
              rw [← segment_append_behind 47 tail] at htail ⊢
              exact .model (separator_not_mem_segment 47 tail) htail (handleModel_ok_iff.mp hhandle)
          · simp only [if_neg hstart, ↓reduceIte] at hhandle
            cases hhandle

/-- What is in the grammar is handled. -/
theorem handle_of_addresses {method path : List UInt8} {target : Target} (haddresses : Addresses method path target) :
    handle method path = .ok target := by
  have hmodels : repositoryPrefix <+: repositoryModelsPrefix := by decide
  cases haddresses with
  | fixed hroute => exact fixedRoutes_unique hroute
  | model hname htail hroute =>
    rw [handle_of_model hroute.method_ne hname hroute.starts htail]
    exact handleModel_ok_iff.mpr hroute
  | repositoryIndex => rfl
  | repositoryLoad hname hne =>
    rw [handle_of_repository (by decide) (hmodels.trans (List.prefix_append _ _))]
    exact (handleRepository_of_model hname).trans (if_neg hne)
  | repositoryUnload hname hne =>
    rw [handle_of_repository (by decide) (hmodels.trans (List.prefix_append _ _))]
    exact (handleRepository_of_model hname).trans (if_neg hne)
  | adminList => rfl
  | adminLoad => rfl
  | admin separator hname htail hroute hother =>
    have hadmin : adminPrefix <+: adminModels := by decide
    rw [handle_of_admin hroute.method_ne (hadmin.trans (List.prefix_append _ _)),
      handleAdmin_of_tail separator hname hroute.starts htail hother]
    exact (handleAdminModel_ok_iff hroute.starts).mpr hroute

/-- A request is answered for a target exactly when the grammar of the routes
says that it is for it. -/
theorem routes_are_a_grammar {method path : List UInt8} {target : Target} :
    handle method path = .ok target ↔ Addresses method path target :=
  ⟨handle_addresses, handle_of_addresses⟩

end neuriplo.server.routing
