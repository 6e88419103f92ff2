import NeuriploRuntime.Batch.Apart
import NeuriploRuntime.Batch.Echo
import NeuriploRuntime.Batch.Probed
import NeuriploRuntime.Codec.Admission

open neuriplo.codec neuriplo.tensor rows stream

namespace neuriplo.batch

/-- Every request of a batch gets the response that it gets alone. -/
def BatchingInvisible (infer : ExecutionRequest → ExecutionResponse) (requests : List ExecutionRequest) : Prop :=
  batchResponses infer requests = .ok (requests.map infer)

/-- An executor admits the rows of each request and those of all. -/
structure AdmitsBatch (admits : Nat → Prop) (requests : List ExecutionRequest) : Prop where
  total : admits (requests.map rowCount).sum
  each : ∀ request ∈ requests, admits (rowCount request)

/-- What an executor gives to the requests alone has elements in its rows. -/
def SizedResponses (infer : ExecutionRequest → ExecutionResponse) (requests : List ExecutionRequest) : Prop :=
  ∀ request ∈ requests, (infer request).ok = true → ∀ output ∈ (infer request).outputs, SizedRows output

section Admitted

variable {front : ExecutionRequest} {others requests : List ExecutionRequest}

/-- Admitted requests that formBatch may group are a group. -/
theorem group_of_admitted {lib : JsonLibrary} {metadata : ModelMetadata} (hseveral : others ≠ [])
    (hadmitted : ∀ request ∈ front :: others, ∃ body header_length,
      parseInferenceRequest lib body metadata header_length = .ok request)
    (hcompatible : ∀ request ∈ others, areBatchCompatible front request = true) : Group front others := by
  refine ⟨hseveral, hcompatible, ?_, ?_, ?_⟩
  · intro request hmem
    obtain ⟨body, header_length, hparse⟩ := hadmitted request hmem
    exact (parseInferenceRequest_inputs hparse).1
  · intro request hmem
    obtain ⟨body, header_length, hparse⟩ := hadmitted request hmem
    exact (parseInferenceRequest_inputs hparse).2.1
  · intro request hmem
    obtain ⟨body, header_length, hparse⟩ := hadmitted request hmem
    exact (parseInferenceRequest_inputs hparse).2.2

/-- Batching is invisible to admitted requests exactly when the batch keeps them
apart, unless each is all there is to the batch. A row-wise executor whose
outputs come apart does not tell it from running them alone; one whose outputs
do not is told by every batch that it accepts. -/
theorem batching_invisible_iff {lib : JsonLibrary} {metadata : ModelMetadata}
    (hadmitted : ∀ request ∈ requests, ∃ body header_length,
      parseInferenceRequest lib body metadata header_length = .ok request)
    (hcompatible : ∀ front ∈ requests.head?, ∀ request ∈ requests.tail, areBatchCompatible front request = true) :
    ((∀ infer admits, RowWise infer admits → AdmitsBatch admits requests → SizedResponses infer requests →
        BatchingInvisible infer requests) ↔ requests.length ≤ 1 ∨ Separable requests ∨ Idle requests) ∧
      (1 < requests.length → Separable requests → ∀ infer admits, RowWise infer admits → AdmitsBatch admits requests →
        (BatchingInvisible infer requests ↔ SizedResponses infer requests)) := by
  match requests with
  | [] => exact ⟨iff_of_true (fun _ _ _ _ _ => rfl) (.inl (Nat.zero_le 1)), fun hlength => absurd hlength (by decide)⟩
  | [request] =>
    exact ⟨iff_of_true (fun _ _ _ _ _ => rfl) (.inl (Nat.le_refl 1)), fun hlength => absurd hlength (by simp)⟩
  | front :: second :: rest =>
    have hgroup := group_of_admitted (List.cons_ne_nil second rest) hadmitted (hcompatible front rfl)
    have hseparated : Separable (front :: second :: rest) → ∀ infer admits, RowWise infer admits →
        AdmitsBatch admits (front :: second :: rest) →
          (BatchingInvisible infer (front :: second :: rest) ↔ SizedResponses infer (front :: second :: rest)) := by
      intro hseparable infer admits hwise hadmits
      constructor
      · intro hinvisible request hrequest hok
        have hmerged : (infer (mergedRequest front (second :: rest))).ok = true := by
          rw [← hseparable.infer_ok hgroup hwise hadmits.total hadmits.each hrequest]
          exact hok
        have hfront : (infer front).ok = true := by
          rw [hseparable.infer_ok hgroup hwise hadmits.total hadmits.each List.mem_cons_self]
          exact hmerged
        rw [hseparable.sized_iff hgroup hwise hadmits.total hadmits.each hrequest hmerged]
        exact hgroup.sized_of_batchResponses hmerged hfront hinvisible
      · intro hsized
        apply hseparable.batchResponses_eq hgroup hwise hadmits.total hadmits.each
        intro hmerged
        rw [← hseparable.sized_iff hgroup hwise hadmits.total hadmits.each List.mem_cons_self hmerged]
        apply hsized front List.mem_cons_self
        rw [hseparable.infer_ok hgroup hwise hadmits.total hadmits.each List.mem_cons_self]
        exact hmerged
    refine ⟨⟨?_, ?_⟩, fun _ => hseparated⟩
    · intro hinvisible
      right
      apply Probed.separable_or_idle _ hgroup
      intro name pattern marked
      refine hinvisible _ _ (probe_rowWise name pattern marked) ⟨trivial, fun _ _ => trivial⟩ ?_
      intro request _ _ output hmem
      exact probe_outputs_sized hmem
    · rintro (hsingle | hseparable | hidle) infer admits hwise hadmits hsized
      · simp at hsingle
      · exact (hseparated hseparable infer admits hwise hadmits).mpr hsized
      · exact hidle.batchResponses_eq hgroup hwise

end Admitted

theorem pointRequest_aligned : Aligned (pointRequest 12) (rowCount (pointRequest 12)) := by
  refine ⟨by decide, rfl, by decide, by decide, ?_⟩
  intro input hmem
  rw [List.mem_singleton.mp hmem]
  exact ⟨by decide, by decide +kernel⟩

/-- The codec admits such requests. -/
theorem pointRequest_admitted : ∀ request ∈ [pointRequest 12, pointRequest 12], ∃ body header_length,
    parseInferenceRequest (pointLibrary 12) body pointMetadata header_length = .ok request := by
  intro request hmem
  have hequal : request = pointRequest 12 := by simpa using hmem
  subst hequal
  exact ⟨pointBody 12, 98, by decide +kernel⟩

/-- An echo of two points, batched and alone. -/
theorem batching_invisible_points : BatchingInvisible (echo 1 "point") [pointRequest 12, pointRequest 12] := by
  have hcompatible : ∀ request ∈ [pointRequest 12], areBatchCompatible (pointRequest 12) request = true := by
    decide
  have hgroup := group_of_admitted (List.cons_ne_nil _ _) pointRequest_admitted hcompatible
  have hseparable : Separable [pointRequest 12, pointRequest 12] := by
    apply hgroup.separable_of_exact
    · intro request hmem
      have hequal : request = pointRequest 12 := by simpa using hmem
      rw [hequal]
      exact pointRequest_aligned
    · decide
    · decide
  refine (batching_invisible_iff pointRequest_admitted ?_).1.mpr (.inr (.inl hseparable)) _ _ (echo_rowWise 1 _) ?_ ?_
  · intro front hfront
    cases hfront
    exact hcompatible
  · constructor
    · decide
    · decide
  · intro request hmem
    have hequal : request = pointRequest 12 := by simpa using hmem
    rw [hequal]
    apply echo_sized
    intro input hinput
    rw [List.mem_singleton.mp hinput]
    exact ⟨by decide, by decide⟩

/-- Rows of four FP32 values. -/
def rowsMetadata : ModelMetadata where
  inputs := [{ name := "x", datatype := "FP32", shape := [-1, 4] }]
  outputs := [{ name := "y", datatype := "FP32", shape := [-1, 4] }]

/-- A request of no rows, with the data of one. -/
def strayRoot : Json :=
  .object [("inputs", .array [.object [("name", .string "x"), ("datatype", .string "FP32"),
    ("shape", .array [.number (.unsigned 0), .number (.unsigned 4)]),
    ("parameters", .object [("binary_data_size", .number (.unsigned 16))])]])]

/-- A request of one row, without data. -/
def hollowRoot : Json :=
  .object [("inputs", .array [.object [("name", .string "x"), ("datatype", .string "FP32"),
    ("shape", .array [.number (.unsigned 1), .number (.unsigned 4)]), ("data", .array [])]])]

def strayHeader : String :=
  "\x7b\"inputs\":[\x7b\"name\":\"x\",\"datatype\":\"FP32\",\"shape\":[0,4]," ++
    "\"parameters\":\x7b\"binary_data_size\":16\x7d\x7d]\x7d"

def hollowHeader : String :=
  "\x7b\"inputs\":[\x7b\"name\":\"x\",\"datatype\":\"FP32\",\"shape\":[1,4],\"data\":[]\x7d]\x7d"

/-- The JSON library on the two texts. -/
def rowsLibrary : JsonLibrary :=
  .reading [(octets strayHeader, strayRoot), (octets hollowHeader, hollowRoot)] fun _ => []

def strayRequest : ExecutionRequest where
  inputs := [{ name := "x", datatype := "FP32", shape := [0, 4], bytes := List.replicate 16 7 }]
  requested_outputs := ["y"]

def hollowRequest : ExecutionRequest where
  inputs := [{ name := "x", datatype := "FP32", shape := [1, 4] }]
  requested_outputs := ["y"]

/-- In a batch, the bytes of a request without rows are the row of a request
without bytes: the second gets the data of the first, and alone it is refused. -/
theorem strayBytes_visible :
    parseInferenceRequest rowsLibrary (octets strayHeader ++ List.replicate 16 7) rowsMetadata
        (octets strayHeader).length = .ok strayRequest ∧
      parseInferenceRequest rowsLibrary (octets hollowHeader) rowsMetadata
        (octets hollowHeader).length = .ok hollowRequest ∧
      areBatchCompatible strayRequest hollowRequest = true ∧
      RowWise (echo 0 "x") (EchoAdmits 0) ∧ AdmitsBatch (EchoAdmits 0) [strayRequest, hollowRequest] ∧
      SizedResponses (echo 0 "x") [strayRequest, hollowRequest] ∧
      (echo 0 "x" hollowRequest).ok = false ∧
      batchResponses (echo 0 "x") [strayRequest, hollowRequest] = .ok [
        { outputs := [{ name := "x", datatype := "FP32", shape := [0, 4] }] },
        { outputs := [{ name := "x", datatype := "FP32", shape := [1, 4], bytes := List.replicate 16 7 }] }] ∧
      ¬ BatchingInvisible (echo 0 "x") [strayRequest, hollowRequest] := by
  refine ⟨by decide +kernel, by decide +kernel, by decide, echo_rowWise 0 "x", ⟨by decide, by decide⟩, ?_,
    by decide, by decide +kernel, ?_⟩
  · intro request hmem
    apply echo_sized
    revert request
    decide
  · unfold BatchingInvisible
    decide +kernel

end neuriplo.batch
