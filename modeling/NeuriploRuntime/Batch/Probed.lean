import Mathlib.Data.List.Induction
import NeuriploRuntime.Batch.Idle
import NeuriploRuntime.Batch.Probe

open neuriplo.tensor rows

namespace neuriplo.batch

section Probed

variable {front request : ExecutionRequest} {others before after : List ExecutionRequest} {index : Nat}

/-- Whatever the probe looks for, it answers every request of the batch as it
answers the request alone. -/
def Probed (front : ExecutionRequest) (others : List ExecutionRequest) : Prop :=
  ∀ name pattern marked, batchResponses (probe name pattern marked) (front :: others) =
    .ok ((front :: others).map (probe name pattern marked))

/-- A probe refuses what is not aligned. -/
theorem probe_failed {name : String} {pattern : List UInt8} {marked : ExecutionRequest}
    (hnot : ¬ Aligned request (rowCount request)) : (probe name pattern marked request).ok = false :=
  Bool.eq_false_of_not_eq_true (mt probe_ok_iff.mp hnot)

theorem probe_error_code (name : String) (pattern : List UInt8) (marked request : ExecutionRequest) :
    (probe name pattern marked request).error_code = "" := by
  unfold probe
  split <;> rfl

/-- A batch that is rejected as a whole is the call of each of its requests. -/
theorem Probed.sameCall (hprobed : Probed front others) (hgroup : Group front others)
    (hmerged : ¬ Aligned (mergedRequest front others) (rowCount (mergedRequest front others)))
    (hrequest : request ∈ front :: others) :
    ¬ Aligned request (rowCount request) ∧ SameCall (mergedRequest front others) request := by
  have hresponses := hprobed "" [] request
  have hfailed := @probe_failed (mergedRequest front others) "" [] request hmerged
  rw [hgroup.batchResponses_eq, splitExecutionResponse_failed hfailed, Except.ok.injEq] at hresponses
  have hresponse := List.map_inj_left.mp hresponses request hrequest
  have haligned : ¬ Aligned request (rowCount request) := by
    rw [← @probe_ok_iff "" [] request, ← hresponse, hfailed]
    exact Bool.false_ne_true
  refine ⟨haligned, ?_⟩
  by_contra hother
  rw [probe, probe, if_neg hmerged, if_neg haligned, if_neg hother, if_pos ⟨.refl _, rfl, rfl⟩] at hresponse
  have hmessage := congrArg ExecutionResponse.error_message hresponse
  exact absurd hmessage (by decide)

/-- A group whose merge a probe refuses is idle. -/
theorem Probed.idle (hprobed : Probed front others) (hgroup : Group front others)
    (hmerged : ¬ Aligned (mergedRequest front others) (rowCount (mergedRequest front others))) :
    Idle (front :: others) := by
  have hsame : ∀ request ∈ front :: others,
      ¬ Aligned request (rowCount request) ∧ SameCall (mergedRequest front others) request := by
    intro request hmem
    exact hprobed.sameCall hgroup hmerged hmem
  have hleading : ∀ request ∈ front :: others, ∀ input ∈ request.inputs,
      input.shape.head? = some (mergedLeading (front :: others)) := by
    intro request hrequest input hmem
    obtain ⟨origin, horigin, rfl⟩ := List.mem_map.mp ((hsame request hrequest).2.inputs.mem_iff.mpr hmem)
    obtain ⟨first, rest, hshape⟩ := List.exists_cons_of_ne_nil (hgroup.found List.mem_cons_self horigin).2.nonempty.1
    rw [mergedTensor, hshape, List.set_cons_zero, List.head?_cons]
  have hparams : ∀ request ∈ front :: others, request.llm_params = none := by
    intro request hrequest
    exact (hsame request hrequest).2.llm_params.symm
  refine ⟨hparams, ?_, ?_, mergedLeading (front :: others), ?_, hleading⟩
  · intro request hrequest
    by_contra hfilled
    simp only [not_exists, not_and, not_not] at hfilled
    have hbatch := requestBatchSize_of_leading (hgroup.nonempty request hrequest) (hleading request hrequest)
    obtain ⟨input, inputs, hinputs⟩ := List.exists_cons_of_ne_nil (hgroup.nonempty request hrequest)
    have hmem : input ∈ request.inputs := by
      rw [hinputs]
      exact List.mem_cons_self
    have hnonneg : 0 ≤ mergedLeading (front :: others) := by
      apply (hfilled input hmem).nonneg
      exact List.mem_of_mem_head? (by rw [hleading request hrequest input hmem]; rfl)
    have hrange : mergedLeading (front :: others) < 2 ^ 63 := by
      unfold mergedLeading wrapInt64
      omega
    have hcount : (rowCount request : Int) = mergedLeading (front :: others) := by
      rw [rowCount, hbatch, Int.toNat_of_nonneg hnonneg]
    refine (hsame request hrequest).1 ⟨by omega, hparams request hrequest, hgroup.nonempty request hrequest, ?_,
      hfilled⟩
    rw [hcount]
    exact hleading request hrequest
  · intro request hrequest input hmem
    obtain ⟨origin, horigin, rfl⟩ := List.mem_map.mp ((hsame request hrequest).2.inputs.mem_iff.mpr hmem)
    -- Every request has the whole payload, so there is none.
    have hwhole : payload (front :: others) origin.name =
        (front :: others).flatMap fun _ => payload (front :: others) origin.name := by
      apply List.flatMap_congr
      intro other hother
      have hmerged := (hsame other hother).2.inputs.mem_iff.mp (List.mem_map_of_mem horigin)
      have hfind := findInputByName_of_mem (hgroup.names other hother) hmerged
      rw [mergedTensor] at hfind
      rw [hfind]
      rfl
    have hlength := congrArg List.length hwhole
    rw [List.length_flatMap, List.map_const', List.sum_replicate_nat, List.length_cons, Nat.add_mul,
      Nat.one_mul] at hlength
    have hproduct : others.length * (payload (front :: others) origin.name).length = 0 := by omega
    cases Nat.mul_eq_zero.mp hproduct with
    | inl hnone => exact absurd (List.length_eq_zero_iff.mp hnone) hgroup.several
    | inr hempty => exact List.length_eq_zero_iff.mp hempty
  · rw [← mergedLeading_replicate]
    intro request hrequest
    exact requestBatchSize_of_leading (hgroup.nonempty request hrequest) (hleading request hrequest)

/-- What the probe finds in an aligned batch comes apart into what it finds in the
requests. -/
theorem Probed.split_probe (hprobed : Probed front others) (hgroup : Group front others)
    (hmerged : Aligned (mergedRequest front others) (rowCount (mergedRequest front others)))
    (hindex : (front :: others)[index]? = some request) (name : String) (pattern : List UInt8) :
    Aligned request (rowCount request) ∧
      splitOutput (probeOutput name pattern (mergedRequest front others))
        (sumSizes ((front :: others).map fun request => castSize (requestBatchSize request)))
        (sumSizes (((front :: others).map fun request => castSize (requestBatchSize request)).take index))
        (((front :: others).map fun request => castSize (requestBatchSize request)).getD index 0) =
      .ok (probeOutput name pattern request) := by
  have hresponses := hprobed name pattern request
  rw [hgroup.batchResponses_eq, splitExecutionResponse_map_iff (probe_ok_iff.mpr hmerged)] at hresponses
  have hresponse := hresponses index request hindex
  rw [probe_aligned hmerged, splitResponse] at hresponse
  obtain ⟨-, part, hsplit, -, hcode⟩ | ⟨-, -, hsplit⟩ | ⟨-, hsplit⟩ :=
    splitOutput_cases (probeOutput name pattern (mergedRequest front others))
      (sumSizes ((front :: others).map fun request => castSize (requestBatchSize request)))
      (sumSizes (((front :: others).map fun request => castSize (requestBatchSize request)).take index))
      (((front :: others).map fun request => castSize (requestBatchSize request)).getD index 0)
  · simp only [List.mapM_cons, List.mapM_nil, hsplit] at hresponse
    have hequal : part = probe name pattern request request := Except.ok.inj hresponse
    rw [hequal, probe_error_code] at hcode
    exact absurd hcode (by decide)
  · simp only [List.mapM_cons, List.mapM_nil, hsplit] at hresponse
    cases hresponse
  · simp only [List.mapM_cons, List.mapM_nil, hsplit] at hresponse
    have hequal : ({ outputs := [_] } : ExecutionResponse) = probe name pattern request request :=
      Except.ok.inj hresponse
    have haligned : Aligned request (rowCount request) := by
      rw [← @probe_ok_iff name pattern request, ← hequal]
    refine ⟨haligned, ?_⟩
    rw [probe_aligned haligned] at hequal
    have hparts := congrArg ExecutionResponse.outputs hequal
    rw [hsplit, (List.cons.inj hparts).1]

/-- A slice of a probe's answer has a byte for each row. -/
theorem sliceBytes_probeOutput (name : String) (pattern : List UInt8) (request : ExecutionRequest) (rows : Nat) :
    sliceBytes (probeOutput name pattern request) rows = wrapSize rows := by
  have hslice : sliceElementCount (probeOutput name pattern request).shape = 1 := rfl
  have hsize : tensorElementSize "UINT8" = 1 := by
    decide
  rw [sliceBytes, hslice, Nat.mul_one, probeOutput, hsize, Nat.mul_one, wrapSize, wrapSize, Nat.mod_mod]

/-- What the probe tells of a request's place in an aligned batch. -/
theorem Probed.place (hprobed : Probed front others) (hgroup : Group front others)
    (hmerged : Aligned (mergedRequest front others) (rowCount (mergedRequest front others)))
    (hsplit : front :: others = before ++ request :: after)
    (hbefore : (before.map rowCount).sum < 2 ^ 63) (name : String) (pattern : List UInt8) :
    (before.map rowCount).sum + rowCount request ≤ rowCount (mergedRequest front others) ∧
      (probeOutput name pattern request).bytes =
        slice 1 (before.map rowCount).sum (rowCount request)
          (probeOutput name pattern (mergedRequest front others)).bytes := by
  have haligned : ∀ other ∈ front :: others, Aligned other (rowCount other) := by
    intro other hmem
    obtain ⟨index, hother⟩ := List.getElem?_of_mem hmem
    exact (hprobed.split_probe hgroup hmerged hother name pattern).1
  have hok := (hprobed.split_probe hgroup hmerged (getElem?_of_split hsplit) name pattern).2
  obtain ⟨htake, hsize⟩ := map_at rowCount hsplit
  rw [batch_sizes_eq haligned, htake, hsize, sumSizes_of_lt (show (before.map rowCount).sum < 2 ^ 64 by omega)] at hok
  obtain ⟨⟨hcuts, -⟩, hpart⟩ := splitOutput_ok_iff.mp hok
  have hrequest := (haligned request (by rw [hsplit]; exact List.mem_append_right _ List.mem_cons_self)).bounded
  have hstart : sliceBytes (probeOutput name pattern (mergedRequest front others)) (before.map rowCount).sum =
      (before.map rowCount).sum := by
    rw [sliceBytes_probeOutput, wrapSize, Nat.mod_eq_of_lt (by omega)]
  have hspan : sliceBytes (probeOutput name pattern (mergedRequest front others)) (rowCount request) =
      rowCount request := by
    rw [sliceBytes_probeOutput, wrapSize, Nat.mod_eq_of_lt (by omega)]
  have hend : sliceEnd (probeOutput name pattern (mergedRequest front others)) (before.map rowCount).sum
      (rowCount request) = (before.map rowCount).sum + rowCount request := by
    rw [sliceEnd, hstart, hspan, wrapSize, Nat.mod_eq_of_lt (by omega)]
  have hfinish := hcuts.finish
  rw [hend, length_probeOutput] at hfinish
  refine ⟨hfinish, ?_⟩
  rw [hpart, splitPart, hstart, hend, Nat.add_sub_cancel_left, slice, Nat.mul_one, Nat.mul_one]

/-- The rows of the requests fit into the batch, one behind the other. -/
theorem Probed.inside (hprobed : Probed front others) (hgroup : Group front others)
    (hmerged : Aligned (mergedRequest front others) (rowCount (mergedRequest front others)))
    (hsplit : front :: others = before ++ request :: after) :
    (before.map rowCount).sum + rowCount request ≤ rowCount (mergedRequest front others) := by
  induction before using List.reverseRecOn generalizing request after with
  | nil => exact (hprobed.place hgroup hmerged hsplit (by decide) "" []).1
  | append_singleton before last ih =>
    have hinit := ih (show front :: others = before ++ last :: request :: after by rw [hsplit]; simp)
    have hbounded := hmerged.bounded
    refine (hprobed.place hgroup hmerged hsplit ?_ "" []).1
    rw [List.map_append, List.sum_append, List.map_singleton, List.sum_singleton]
    omega

/-- What a batch has under a name of the first request. -/
theorem find_mergedRequest (front : ExecutionRequest) (others : List ExecutionRequest) (name : String) :
    findInputByName (mergedRequest front others) name =
      (findInputByName front name).map (mergedTensor (front :: others) (mergedLeading (front :: others))) := by
  rw [findInputByName, mergedRequest, List.find?_map]
  rfl

/-- An aligned batch through which the probe sees every request keeps them
apart. -/
theorem Probed.separable (hprobed : Probed front others) (hgroup : Group front others)
    (hmerged : Aligned (mergedRequest front others) (rowCount (mergedRequest front others))) :
    Separable (front :: others) := by
  have haligned : ∀ other ∈ front :: others, Aligned other (rowCount other) := by
    intro other hmem
    obtain ⟨index, hother⟩ := List.getElem?_of_mem hmem
    exact (hprobed.split_probe hgroup hmerged hother "" []).1
  have htotal : ((front :: others).map rowCount).sum ≤ rowCount (mergedRequest front others) := by
    obtain ⟨init, last, hsplit⟩ := (List.eq_nil_or_concat (front :: others)).resolve_left (List.cons_ne_nil _ _)
    rw [List.concat_eq_append] at hsplit
    have hinside := hprobed.inside hgroup hmerged hsplit
    rw [hsplit, List.map_append, List.sum_append, List.map_singleton, List.sum_singleton]
    exact hinside
  have hbounded : ((front :: others).map rowCount).sum < 2 ^ 63 := Nat.lt_of_le_of_lt htotal hmerged.bounded
  -- Every input of a request is one of the first request's.
  have horigin : ∀ other ∈ front :: others, ∀ input ∈ other.inputs, ∃ origin ∈ front.inputs,
      findInputByName other origin.name = some input ∧ Matches origin input ∧ origin.name = input.name := by
    intro other hother input hmem
    obtain ⟨origin, horigin, rfl⟩ := List.mem_map.mp ((hgroup.inputs_perm hother).mem_iff.mpr hmem)
    obtain ⟨hfind, hmatches⟩ := hgroup.found hother horigin
    exact ⟨origin, horigin, hfind, hmatches, hmatches.name.symm⟩
  have hleading : mergedLeading (front :: others) = ((front :: others).map rowCount).sum := by
    rw [mergedLeading, batch_sizes_eq haligned, sumSizes_of_lt (by omega), wrapInt64_natCast hbounded]
  have hshape : ∀ origin ∈ front.inputs,
      (mergedTensor (front :: others) (mergedLeading (front :: others)) origin).shape =
      (((front :: others).map rowCount).sum : Int) :: origin.shape.tail := by
    intro origin hmem
    obtain ⟨first, rest, hnonempty⟩ := List.exists_cons_of_ne_nil (hgroup.found List.mem_cons_self hmem).2.nonempty.1
    rw [mergedTensor, hleading, hnonempty, List.set_cons_zero, List.tail_cons]
  refine ⟨haligned, hbounded, ?_, ?_⟩
  · intro other hother input hmem
    obtain ⟨origin, horigin, -, hmatches, hname⟩ := horigin other hother input hmem
    have hfilled := hmerged.filled _ (List.mem_map_of_mem horigin)
    have hcount := hfilled.count_rows (by rw [hshape origin horigin, List.head?_cons])
    rw [rowElements, hshape origin horigin, List.tail_cons, ← hmatches.tail] at hcount
    rw [hmatches.datatype, ← hname, rowElements]
    exact hcount
  · intro before request after hsplit input hmem
    have hrequest : request ∈ front :: others := by
      rw [hsplit]
      exact List.mem_append_right before List.mem_cons_self
    obtain ⟨origin, horigin, hfind, hmatches, hname⟩ := horigin request hrequest input hmem
    have hinside := hprobed.inside hgroup hmerged hsplit
    have hroom := hmerged.bounded
    have hrowBytes : rowBytes (mergedTensor (front :: others) (mergedLeading (front :: others)) origin) =
        rowBytes input := by
      rw [rowBytes, rowElements, hshape origin horigin, List.tail_cons, rowBytes, rowElements, hmatches.tail,
        hmatches.datatype]
      rfl
    apply slice_ext
    intro row hrow
    have hbytes := (hprobed.place hgroup hmerged hsplit (by omega) input.name
      (slice (rowBytes input) row 1 input.bytes)).2
    rw [probeOutput, probeOutput, slice_range _ hinside] at hbytes
    have hmatch := (List.map_inj_left.mp hbytes) row (List.mem_range.mpr hrow)
    rw [← hname, rowMatches, hfind, rowMatches, find_mergedRequest,
      findInputByName_of_mem (hgroup.names front List.mem_cons_self) horigin] at hmatch
    simp only [if_true, Option.map_some, hrowBytes] at hmatch
    split at hmatch
    · rename_i hequal
      rw [Nat.zero_add, ← hname]
      exact hequal
    · cases hmatch

/-- Batching is invisible to every request of a group as far as the probe goes
exactly when the batch keeps the requests apart or is the call of each. -/
theorem Probed.separable_or_idle (hprobed : Probed front others) (hgroup : Group front others) :
    Separable (front :: others) ∨ Idle (front :: others) := by
  by_cases hmerged : Aligned (mergedRequest front others) (rowCount (mergedRequest front others))
  · exact .inl (hprobed.separable hgroup hmerged)
  · exact .inr (hprobed.idle hgroup hmerged)

end Probed

end neuriplo.batch
