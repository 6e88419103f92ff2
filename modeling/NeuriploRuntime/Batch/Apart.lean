import NeuriploRuntime.Batch.Responses
import NeuriploRuntime.Batch.Splitting

open neuriplo.tensor rows

namespace neuriplo.batch

section Apart

variable {front request : ExecutionRequest} {others : List ExecutionRequest}
  {infer : ExecutionRequest → ExecutionResponse} {admits : Nat → Prop}

/-- An executor that takes a batch takes each of its requests. -/
theorem Separable.infer_ok (hseparable : Separable (front :: others)) (hgroup : Group front others)
    (hwise : RowWise infer admits) (htotal : admits ((front :: others).map rowCount).sum)
    (hadmits : ∀ request ∈ front :: others, admits (rowCount request)) (hrequest : request ∈ front :: others) :
    (infer request).ok = (infer (mergedRequest front others)).ok := by
  obtain ⟨before, after, hsplit⟩ := List.append_of_mem hrequest
  rw [hwise.infer_eq hgroup hseparable htotal (hadmits request hrequest) hsplit, responseRows]
  split <;> rfl

/-- An output has elements in its rows for one request if and only if it has for
the batch. -/
theorem Separable.sized_iff (hseparable : Separable (front :: others)) (hgroup : Group front others)
    (hwise : RowWise infer admits) (htotal : admits ((front :: others).map rowCount).sum)
    (hadmits : ∀ request ∈ front :: others, admits (rowCount request)) (hrequest : request ∈ front :: others)
    (hok : (infer (mergedRequest front others)).ok = true) :
    (∀ output ∈ (infer request).outputs, SizedRows output) ↔
      ∀ output ∈ (infer (mergedRequest front others)).outputs, SizedRows output := by
  obtain ⟨before, after, hsplit⟩ := List.append_of_mem hrequest
  rw [hwise.infer_eq hgroup hseparable htotal (hadmits request hrequest) hsplit, responseRows, if_pos hok]
  simp only [List.mem_map, forall_exists_index, and_imp, forall_apply_eq_imp_iff₂, sizedRows_tensorRows]

/-- A batch that keeps its requests apart answers each as it is answered alone,
provided that the outputs have elements in their rows. -/
theorem Separable.batchResponses_eq (hseparable : Separable (front :: others)) (hgroup : Group front others)
    (hwise : RowWise infer admits) (htotal : admits ((front :: others).map rowCount).sum)
    (hadmits : ∀ request ∈ front :: others, admits (rowCount request))
    (hsized : (infer (mergedRequest front others)).ok = true →
      ∀ output ∈ (infer (mergedRequest front others)).outputs, SizedRows output) :
    batchResponses infer (front :: others) = .ok ((front :: others).map infer) := by
  rw [hgroup.batchResponses_eq]
  by_cases hok : (infer (mergedRequest front others)).ok = true
  · rw [splitExecutionResponse_map_iff hok]
    intro index request hindex
    obtain ⟨before, after, hsplit, rfl⟩ := split_of_getElem? hindex
    have hbounded := hseparable.bounded
    have hinside : (before.map rowCount).sum + rowCount request ≤ ((front :: others).map rowCount).sum := by
      rw [hsplit, List.map_append, List.sum_append, List.map_cons, List.sum_cons]
      omega
    obtain ⟨outputs, houtputs, hrowed⟩ := hwise.outputs _ _ hseparable.aligned_merged htotal hok
    obtain ⟨hbefore, hsize⟩ := map_at rowCount hsplit
    have hparts := splitOutputs_rows hrowed (by simpa only [houtputs] using hsized hok) hbounded hinside
    have hrequest := hadmits request (List.mem_of_getElem? hindex)
    rw [hwise.infer_eq hgroup hseparable htotal hrequest hsplit, responseRows, if_pos hok, splitResponse]
    rw [batch_sizes_eq hseparable.aligned, hbefore, hsize, sumSizes_of_lt (by omega), sumSizes_of_lt (by omega),
      houtputs]
    simp only [hparts]
  · have hfailed := Bool.eq_false_of_not_eq_true hok
    rw [splitExecutionResponse_failed hfailed]
    refine congrArg Except.ok (List.map_congr_left ?_)
    intro request hmem
    obtain ⟨before, after, hsplit⟩ := List.append_of_mem hmem
    rw [hwise.infer_eq hgroup hseparable htotal (hadmits request hmem) hsplit, responseRows, hfailed]
    rfl

/-- A batch whose requests are answered with parts has cut every output, so that
its rows have elements. -/
theorem Group.sized_of_batchResponses (hgroup : Group front others)
    (hok : (infer (mergedRequest front others)).ok = true) (hfront : (infer front).ok = true)
    (hresponses : batchResponses infer (front :: others) = .ok ((front :: others).map infer)) :
    ∀ output ∈ (infer (mergedRequest front others)).outputs, SizedRows output := by
  rw [hgroup.batchResponses_eq, splitExecutionResponse_map_iff hok] at hresponses
  have hfirst := hresponses 0 front rfl
  obtain ⟨hforward, -⟩ | ⟨-, response, hresponse, hfailed⟩ | ⟨-, hthrew⟩ :=
    splitResponse_cases (infer (mergedRequest front others))
      ((front :: others).map fun request => castSize (requestBatchSize request)) 0
  · intro output hmem
    exact sizedRows_of_cutsForward (hforward output hmem)
  · rw [hfirst, Except.ok.injEq] at hresponse
    rw [← hresponse, hfront] at hfailed
    cases hfailed
  · rw [hfirst] at hthrew
    cases hthrew

/-- Requests whose inputs have their rows and nothing else are kept apart. -/
theorem Group.separable_of_exact (hgroup : Group front others)
    (haligned : ∀ request ∈ front :: others, Aligned request (rowCount request))
    (hbounded : ((front :: others).map rowCount).sum < 2 ^ 63)
    (hexact : ∀ request ∈ front :: others, ∀ input ∈ request.inputs,
      input.bytes.length = rowCount request * rowBytes input) : Separable (front :: others) := by
  have hrows : ∀ input ∈ front.inputs, ∀ request ∈ front :: others,
      (((findInputByName request input.name).map (·.bytes)).getD []).length = rowCount request * rowBytes input := by
    intro input hmem request hrequest
    obtain ⟨hfind, hmatches⟩ := hgroup.found hrequest hmem
    rw [hfind, Option.map_some, Option.getD_some, hexact request hrequest _ (findInputByName_some hfind).1,
      hmatches.rowBytes_eq]
  have horigin : ∀ request ∈ front :: others, ∀ input ∈ request.inputs, ∃ origin ∈ front.inputs,
      findInputByName request origin.name = some input ∧ Matches origin input := by
    intro request hrequest input hmem
    obtain ⟨origin, horigin, rfl⟩ := List.mem_map.mp ((hgroup.inputs_perm hrequest).mem_iff.mpr hmem)
    exact ⟨origin, horigin, hgroup.found hrequest horigin⟩
  have helements : ∀ input ∈ front.inputs, ∀ request ∈ front :: others, tensorElementSize input.datatype = 0 →
      rowCount request * rowElements input.shape = 0 := by
    intro input hmem request hrequest hunknown
    obtain ⟨hfind, hmatches⟩ := hgroup.found hrequest hmem
    have hfound := (findInputByName_some hfind).1
    have hcount := ((haligned request hrequest).filled _ hfound).count_rows
      ((haligned request hrequest).leading _ hfound)
    rw [tensorElementCount, hmatches.datatype, if_pos hunknown, rowElements, hmatches.tail] at hcount
    rw [rowElements, ← hcount]
  refine ⟨haligned, hbounded, ?_, ?_⟩
  · intro request hrequest input hmem
    obtain ⟨origin, horigin, -, hmatches⟩ := horigin request hrequest input hmem
    have hlength := length_flatMap_rows (hrows origin horigin)
    rw [hmatches.name, hmatches.datatype, rowElements, hmatches.tail, payload, tensorElementCount]
    by_cases hunknown : tensorElementSize origin.datatype = 0
    · have hnone : ∀ other ∈ front :: others, rowCount other * (origin.shape.tail.map Int.toNat).prod = 0 :=
        fun other hother => helements origin horigin other hother hunknown
      rw [if_pos hunknown, ← List.sum_map_mul_right, List.map_congr_left hnone]
      simp
    · rw [if_neg hunknown, hlength, rowBytes, ← Nat.mul_assoc, Nat.mul_div_cancel _ (Nat.pos_of_ne_zero hunknown)]
      rfl
  · intro before request after hsplit input hmem
    have hrequest : request ∈ front :: others := by
      rw [hsplit]
      exact List.mem_append_right before List.mem_cons_self
    obtain ⟨origin, horigin, hfind, hmatches⟩ := horigin request hrequest input hmem
    have hbefore : ∀ other ∈ before,
        (((findInputByName other origin.name).map (·.bytes)).getD []).length = rowCount other * rowBytes origin := by
      intro other hother
      apply hrows origin horigin
      rw [hsplit]
      exact List.mem_append_left _ hother
    have hplace := @slice_flatMap _ _ (rowBytes origin) before after request
      (fun other => ((findInputByName other origin.name).map (·.bytes)).getD []) rowCount hbefore
      (Nat.le_of_eq (hrows origin horigin request hrequest).symm)
    rw [hmatches.rowBytes_eq, hmatches.name, payload, hsplit, hplace, hfind]
    rfl

end Apart

end neuriplo.batch
