import Mathlib.Algebra.BigOperators.Ring.List
import Mathlib.Algebra.Order.BigOperators.Group.List
import NeuriploRuntime.Batch.Merging

open neuriplo.tensor rows

namespace neuriplo.batch

/-- The rows of a request. -/
def rowCount (request : ExecutionRequest) : Nat := (requestBatchSize request).toNat

/-- Requests that a batch keeps apart: each is aligned, together they have the
elements of their rows, and where the rows of the others before it end its own
rows begin. -/
structure Separable (requests : List ExecutionRequest) : Prop where
  aligned : ∀ request ∈ requests, Aligned request (rowCount request)
  bounded : (requests.map rowCount).sum < 2 ^ 63
  counted : ∀ request ∈ requests, ∀ input ∈ request.inputs,
    tensorElementCount input.datatype (payload requests input.name) =
      (requests.map rowCount).sum * rowElements input.shape
  placed : ∀ before request after, requests = before ++ request :: after → ∀ input ∈ request.inputs,
    slice (rowBytes input) (before.map rowCount).sum (rowCount request) (payload requests input.name) =
      slice (rowBytes input) 0 (rowCount request) input.bytes

theorem sumSizes_eq (sizes : List Nat) : sumSizes sizes = wrapSize sizes.sum := by
  have hfold : ∀ total < 2 ^ 64, sizes.foldl (fun total size => wrapSize (total + size)) total =
      wrapSize (total + sizes.sum) := by
    induction sizes with
    | nil =>
      intro total htotal
      rw [List.foldl_nil, List.sum_nil, Nat.add_zero, wrapSize, Nat.mod_eq_of_lt htotal]
    | cons size sizes ih =>
      intro total htotal
      rw [List.foldl_cons, List.sum_cons, ih (wrapSize (total + size)) (Nat.mod_lt _ (by omega))]
      simp only [wrapSize, Nat.mod_add_mod, Nat.add_assoc]
  rw [sumSizes, hfold 0 (by omega), Nat.zero_add]

/-- A sum of sizes that fits does not wrap. -/
theorem sumSizes_of_lt {sizes : List Nat} (hbounded : sizes.sum < 2 ^ 64) : sumSizes sizes = sizes.sum := by
  rw [sumSizes_eq, wrapSize, Nat.mod_eq_of_lt hbounded]

/-- The batch size of an aligned request is the number of its rows. -/
theorem Aligned.requestBatchSize_eq {request : ExecutionRequest} {count : Nat} (haligned : Aligned request count) :
    requestBatchSize request = count := by
  unfold requestBatchSize
  split
  · rename_i hnone
    exact absurd hnone haligned.nonempty
  · rename_i input inputs hinputs
    rw [haligned.leading input (by rw [hinputs]; exact List.mem_cons_self), Option.getD_some]

theorem castSize_natCast {value : Nat} (hbounded : value < 2 ^ 63) : castSize value = value := by
  unfold castSize
  omega

theorem wrapInt64_natCast {value : Nat} (hbounded : value < 2 ^ 63) : wrapInt64 value = value := by
  unfold wrapInt64
  omega

/-- The batch sizes of aligned requests are the numbers of their rows. -/
theorem batch_sizes_eq {requests : List ExecutionRequest}
    (haligned : ∀ request ∈ requests, Aligned request (rowCount request)) :
    requests.map (fun request => castSize (requestBatchSize request)) = requests.map rowCount := by
  apply List.map_congr_left
  intro request hmem
  rw [(haligned request hmem).requestBatchSize_eq, castSize_natCast (haligned request hmem).bounded]

/-- Separable requests merge to all of their rows. -/
theorem Separable.mergedLeading_eq {requests : List ExecutionRequest} (hseparable : Separable requests) :
    mergedLeading requests = (requests.map rowCount).sum := by
  have hbounded := hseparable.bounded
  rw [mergedLeading, batch_sizes_eq hseparable.aligned, sumSizes_of_lt (by omega), wrapInt64_natCast hbounded]

theorem rowElements_eq {shape : List Int} (hnonneg : ∀ dimension ∈ shape, 0 ≤ dimension) :
    (rowElements shape : Int) = shape.tail.prod := by
  have htail : ∀ dimensions : List Int, (∀ dimension ∈ dimensions, 0 ≤ dimension) →
      ((dimensions.map Int.toNat).prod : Int) = dimensions.prod := by
    intro dimensions hall
    induction dimensions with
    | nil => rfl
    | cons dimension dimensions ih =>
      obtain ⟨hfirst, hrest⟩ := List.forall_mem_cons.mp hall
      rw [List.map_cons, List.prod_cons, List.prod_cons, Nat.cast_mul, ih hrest, Int.toNat_of_nonneg hfirst]
  exact htail shape.tail fun dimension hmem => hnonneg dimension (List.mem_of_mem_tail hmem)

/-- A filled tensor of `count` rows has their elements. -/
theorem Filled.count_rows {tensor : InputTensor} {count : Nat} (hfilled : Filled tensor)
    (hleading : tensor.shape.head? = some (count : Int)) :
    tensorElementCount tensor.datatype tensor.bytes = count * rowElements tensor.shape := by
  have hshape : tensor.shape = (count : Int) :: tensor.shape.tail := by
    obtain ⟨tail, htail⟩ := List.head?_eq_some_iff.mp hleading
    rw [htail, List.tail_cons]
  have hcount := hfilled.count
  rw [hshape, List.prod_cons, ← rowElements_eq hfilled.nonneg] at hcount
  exact_mod_cast hcount

/-- The bytes of a filled tensor's rows are there. -/
theorem Filled.rows_le {tensor : InputTensor} {count : Nat} (hfilled : Filled tensor)
    (hleading : tensor.shape.head? = some (count : Int)) : count * rowBytes tensor ≤ tensor.bytes.length := by
  have hcount := hfilled.count_rows hleading
  rw [rowBytes, ← Nat.mul_assoc, ← hcount, tensorElementCount]
  split
  · rw [Nat.zero_mul]
    exact Nat.zero_le _
  · exact Nat.div_mul_le_self _ _

section Separation

variable {front request : ExecutionRequest} {others before after : List ExecutionRequest}

theorem Matches.rowBytes_eq {input found : InputTensor} (hmatches : Matches input found) :
    rowBytes found = rowBytes input := by
  rw [rowBytes, rowBytes, rowElements, rowElements, hmatches.tail, hmatches.datatype]

theorem Matches.set_shape {input found : InputTensor} (hmatches : Matches input found) (count : Int) :
    found.shape.set 0 count = input.shape.set 0 count := by
  obtain ⟨first, rest, hinput⟩ := List.exists_cons_of_ne_nil hmatches.nonempty.1
  obtain ⟨other, tail, hfound⟩ := List.exists_cons_of_ne_nil hmatches.nonempty.2
  have htail := hmatches.tail
  rw [hinput, hfound] at htail ⊢
  rw [List.tail_cons, List.tail_cons] at htail
  rw [List.set_cons_zero, List.set_cons_zero, htail]

/-- The rows that a merged input has where a request's rows are belong to this
request. -/
theorem Group.tensorRows_merged (hgroup : Group front others) (hsplit : front :: others = before ++ request :: after)
    (hseparable : Separable (front :: others)) {input : InputTensor} (hmem : input ∈ front.inputs) (total : Int) :
    tensorRows (mergedTensor (front :: others) total input) (before.map rowCount).sum (rowCount request) =
      tensorRows (matching input request) 0 (rowCount request) := by
  have hrequest : request ∈ front :: others := by
    rw [hsplit]
    exact List.mem_append_right before List.mem_cons_self
  obtain ⟨hfind, hmatches⟩ := hgroup.found hrequest hmem
  have hfound := (findInputByName_some hfind).1
  have hrowBytes : rowBytes (mergedTensor (front :: others) total input) = rowBytes input := by
    obtain ⟨first, rest, hinput⟩ := List.exists_cons_of_ne_nil hmatches.nonempty.1
    simp only [rowBytes, rowElements, mergedTensor, hinput, List.set_cons_zero, List.tail_cons]
  have hstrings : (matching input request).string_data = [] ∧ input.string_data = [] := by
    have hbytes := hgroup.notBytes hmem
    refine ⟨hgroup.strings request hrequest _ hfound ?_, hgroup.strings front List.mem_cons_self input hmem hbytes⟩
    rw [hmatches.datatype]
    exact hbytes
  have hplaced := hseparable.placed before request after hsplit _ hfound
  rw [hmatches.rowBytes_eq, hmatches.name] at hplaced
  rw [tensorRows, tensorRows, hrowBytes, hmatches.rowBytes_eq, hstrings.1, hmatches.set_shape]
  simp only [mergedTensor, hplaced, hmatches.name, hmatches.datatype, hstrings.2, List.set_set]
  simp [slice]

/-- The merge of separable requests is aligned. -/
theorem Separable.aligned_merged (hseparable : Separable (front :: others)) :
    Aligned (mergedRequest front others) ((front :: others).map rowCount).sum := by
  have hfront := hseparable.aligned front List.mem_cons_self
  have hshape : ∀ input ∈ front.inputs, input.shape = (rowCount front : Int) :: input.shape.tail := by
    intro input hmem
    obtain ⟨tail, htail⟩ := List.head?_eq_some_iff.mp (hfront.leading input hmem)
    rw [htail, List.tail_cons]
  have hleading := hseparable.mergedLeading_eq
  constructor
  · exact hseparable.bounded
  · rfl
  · intro hnone
    exact hfront.nonempty (List.map_eq_nil_iff.mp hnone)
  · intro merged hmerged
    obtain ⟨input, hmem, rfl⟩ := List.mem_map.mp hmerged
    rw [mergedTensor, hleading, hshape input hmem, List.set_cons_zero]
    rfl
  · intro merged hmerged
    obtain ⟨input, hmem, rfl⟩ := List.mem_map.mp hmerged
    have hnonneg := (hfront.filled input hmem).nonneg
    constructor
    · intro dimension hdimension
      rw [mergedTensor, hleading, hshape input hmem, List.set_cons_zero] at hdimension
      cases List.mem_cons.mp hdimension with
      | inl hequal =>
        rw [hequal]
        exact Int.natCast_nonneg _
      | inr htail => exact hnonneg dimension (List.mem_of_mem_tail htail)
    · have hcount := hseparable.counted front List.mem_cons_self input hmem
      rw [mergedTensor, hcount, hleading, hshape input hmem, List.set_cons_zero, List.prod_cons, ← hshape input hmem,
        ← rowElements_eq hnonneg, Nat.cast_mul]

/-- A row-wise executor gives a request alone what it gives the request's rows in
the batch. -/
theorem RowWise.infer_eq {infer : ExecutionRequest → ExecutionResponse} {admits : Nat → Prop}
    (hwise : RowWise infer admits) (hgroup : Group front others) (hseparable : Separable (front :: others))
    (htotal : admits ((front :: others).map rowCount).sum) (hcount : admits (rowCount request))
    (hsplit : front :: others = before ++ request :: after) :
    infer request =
      responseRows (infer (mergedRequest front others)) (before.map rowCount).sum (rowCount request) := by
  have hrequest : request ∈ front :: others := by
    rw [hsplit]
    exact List.mem_append_right before List.mem_cons_self
  have haligned := hseparable.aligned request hrequest
  have hinside : (before.map rowCount).sum + rowCount request ≤ ((front :: others).map rowCount).sum := by
    rw [hsplit, List.map_append, List.sum_append, List.map_cons, List.sum_cons]
    omega
  have hinputs : (requestRows (mergedRequest front others) (before.map rowCount).sum (rowCount request)).inputs =
      (front.inputs.map (matching · request)).map (tensorRows · 0 (rowCount request)) := by
    rw [requestRows, mergedRequest, List.map_map, List.map_map]
    apply List.map_congr_left
    intro input hmem
    exact hgroup.tensorRows_merged hsplit hseparable hmem _
  have hperm : (requestRows request 0 (rowCount request)).inputs.Perm
      (requestRows (mergedRequest front others) (before.map rowCount).sum (rowCount request)).inputs := by
    rw [hinputs]
    exact ((hgroup.inputs_perm hrequest).map _).symm
  have hnames : ((requestRows request 0 (rowCount request)).inputs.map (·.name)).Nodup := by
    rw [requestRows, List.map_map]
    exact hgroup.names request hrequest
  calc infer request
      = responseRows (infer request) 0 (rowCount request) := (hwise.responseRows_whole haligned hcount).symm
    _ = infer (requestRows request 0 (rowCount request)) :=
        (hwise.rows request _ 0 _ haligned hcount hcount (by omega)).symm
    _ = infer (requestRows (mergedRequest front others) (before.map rowCount).sum (rowCount request)) :=
        hwise.unordered _ _ hnames ⟨hperm, (hgroup.requested_outputs_eq hrequest).symm, haligned.params⟩
    _ = responseRows (infer (mergedRequest front others)) (before.map rowCount).sum (rowCount request) :=
        hwise.rows _ _ _ _ hseparable.aligned_merged htotal hcount hinside

end Separation

end neuriplo.batch
