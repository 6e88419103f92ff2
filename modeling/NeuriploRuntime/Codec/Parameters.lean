import NeuriploRuntime.Codec.Admission

open neuriplo.tensor

namespace neuriplo.codec

variable {lib : JsonLibrary}

/-- Two bodies with the same fields but for the generation parameters. -/
def SameButParameters (root other : Json) : Prop :=
  ∀ key, key ≠ "parameters" → other.field key = root.field key

/-- Two requests for the same tensors. -/
structure SameTensors (request other : ExecutionRequest) : Prop where
  id : other.id = request.id
  inputs : other.inputs = request.inputs
  requested_outputs : other.requested_outputs = request.requested_outputs

variable {metadata : ModelMetadata} {binary_blob : List UInt8} {root other : Json} {request request' : InferenceRequest}

/-- The id of an accepted request, and its parameters: there are some exactly when
the body has the field, be it empty. -/
theorem parseRoot_params (hparse : parseRoot lib metadata binary_blob root = .ok request) :
    parseId root = .ok request.id ∧ (request.llm_params = none ↔ root.field "parameters" = none) := by
  unfold parseRoot at hparse
  split at hparse
  · cases hparse
  · split at hparse
    · cases hparse
    · rename_i id hid
      split at hparse
      · cases hparse
      · cases hparse
      · split at hparse
        · cases hparse
        · split at hparse
          · cases hparse
          · split at hparse
            · cases hparse
            · unfold parseRest at hparse
              split at hparse
              · cases hparse
              · split at hparse
                · rename_i hfield
                  cases hparse
                  exact ⟨hid, iff_of_true rfl hfield⟩
                · rename_i hfield
                  split at hparse
                  · cases hparse
                  · cases hparse
                    refine ⟨hid, iff_of_false nofun ?_⟩
                    rw [hfield]
                    exact nofun

/-- Requests that differ in their parameters only have the same tensors. -/
theorem sameTensors_of_parse (hsame : SameButParameters root other)
    (hparse : parseRoot lib metadata binary_blob root = .ok request)
    (hother : parseRoot lib metadata binary_blob other = .ok request') : SameTensors request request' := by
  obtain ⟨nodes, hnodes, -, hinputs, -, houtputs⟩ := parseRoot_ok hparse
  obtain ⟨nodes', hnodes', -, hinputs', -, houtputs'⟩ := parseRoot_ok hother
  have hid := (parseRoot_params hparse).1
  have hid' := (parseRoot_params hother).1
  unfold parseId at hid hid'
  unfold parseOutputs at houtputs houtputs'
  rw [hsame "id" (by decide), hid, Except.ok.injEq] at hid'
  rw [hsame "outputs" (by decide), houtputs, Except.ok.injEq] at houtputs'
  rw [hsame "inputs" (by decide), hnodes, Option.some.injEq] at hnodes'
  rw [← hnodes', hinputs, Except.ok.injEq, Prod.mk.injEq] at hinputs'
  exact ⟨hid'.symm, hinputs'.1.symm, houtputs'.symm⟩

end neuriplo.codec
