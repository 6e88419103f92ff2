import Mathlib.Data.List.Nodup
import NeuriploRuntime.Registry.Reachable

open neuriplo.config neuriplo.model neuriplo.model.ModelLifecycle neuriplo.pipeline neuriplo.tensor transition

namespace neuriplo.registry

/-- The scheduler of a slot's published snapshot. -/
def ModelSlot.published (slot : ModelSlot) : Option Nat := (slot.active_snapshot.bind (·.scheduler)).map (·.id)

/-- The scheduler of the snapshot that a thread goes on to retire. -/
def Pc.displaced (pc : Pc) : Option Nat := (pc.retires.bind (·.scheduler)).map (·.id)

/-- What a thread has in hand: a scheduler it built and has yet to publish, or one
that it has yet to retire. -/
def Pc.carries (pc : Pc) : Option Nat := pc.serves.or pc.displaced

def State.keeps (s : State) : Place → Option Nat := s.places ModelSlot.published Pc.carries

/-- Every scheduler is in one place until it is retired, and it is retired once. -/
structure State.Keeping (s : State) : Prop where
  custody : Custody s.keeps (· ∈ s.registry_.retire_queue_) s.registry_.next_scheduler
  once : s.registry_.retire_queue_.Nodup

/-- The handle has parted with a scheduler that only the published snapshot still
names. -/
def ModelSlot.bereft (slot : ModelSlot) : Bool := slot.handle.scheduler.isNone && slot.published.isSome

theorem ModelSlot.published_of {slot : ModelSlot} (hpublished : slot.Published) :
    slot.published = slot.handle.scheduler.map (·.id) := by
  unfold published
  rw [hpublished]
  rfl

/-- A slot publishes the scheduler of its handle. -/
theorem ModelSlot.publishSnapshot_published (slot : ModelSlot) :
    slot.publishSnapshot.published = slot.handle.scheduler.map (·.id) := rfl

/-- A handle with a scheduler is published with it. -/
theorem ModelSlot.Phase.published_of_scheduler {slot : ModelSlot} (hphase : slot.Phase) {scheduler : Scheduler}
    (hscheduler : slot.handle.scheduler = some scheduler) : slot.published = some scheduler.id := by
  rw [ModelSlot.published_of (hphase.of_scheduler hscheduler), hscheduler, Option.map_some]

/-- Unless it is bereft, a slot has published the scheduler of its handle. -/
theorem ModelSlot.Phase.published_eq {slot : ModelSlot} (hphase : slot.Phase) (hbereft : slot.bereft = false) :
    slot.published = slot.handle.scheduler.map (·.id) := by
  cases hscheduler : slot.handle.scheduler with
  | none =>
    simp only [ModelSlot.bereft, hscheduler, Option.isNone_none, Bool.true_and, Option.isSome_eq_false_iff,
      Option.isNone_iff_eq_none] at hbereft
    rw [hbereft, Option.map_none]
  | some scheduler => rw [hphase.published_of_scheduler hscheduler, Option.map_some]

/-- Only a replacement in flight leaves a slot bereft. -/
theorem ModelSlot.Phase.pending_of_bereft {slot : ModelSlot} (hphase : slot.Phase) (hbereft : slot.bereft = true) :
    slot.reload_pending = true := by
  have hnot (hpublished : slot.Published) : slot.reload_pending = true := by
    simp only [ModelSlot.bereft, ModelSlot.published_of hpublished, Option.isSome_map, Bool.and_eq_true,
      Option.isNone_iff_eq_none] at hbereft
    rw [hbereft.1] at hbereft
    cases hbereft.2
  cases hphase with
  | rebuilding snapshot hstate hpending => exact hpending
  | loading _ _ _ _ hpublished => exact hnot hpublished
  | ready _ _ _ hpublished => exact hnot hpublished
  | failed _ _ _ _ _ hpublished => exact hnot hpublished
  | unloading _ _ _ _ hpublished => exact hnot hpublished
  | unloaded _ _ _ hpublished => exact hnot hpublished

theorem Pc.notified_displaced (pc : Pc) : pc.notified.displaced = pc.displaced := by
  rw [Pc.displaced, Pc.displaced, Pc.notified_retires]

theorem Pc.notified_carries (pc : Pc) : pc.notified.carries = pc.carries := by
  rw [Pc.carries, Pc.carries, Pc.notified_serves, Pc.notified_displaced]

section Move

variable {s : State} {thread : Nat} {registry' : ModelRegistry} {pc' : Pc} {model_name : String}

theorem State.keeps_slot {slot : ModelSlot} (hslot : s.registry_.models_ model_name = some slot) :
    s.keeps (.slot model_name) = slot.published := by
  change (s.registry_.models_ model_name).bind ModelSlot.published = slot.published
  rw [hslot, Option.bind_some]

/-- Who keeps a scheduler after a thread has moved and one slot has changed. -/
theorem State.move_keeps {slot' : Option ModelSlot}
    (hmodels : registry'.models_ = Function.update s.registry_.models_ model_name slot') :
    (s.move thread (registry', pc')).keeps =
      Function.update (Function.update s.keeps (.slot model_name) (slot'.bind ModelSlot.published))
        (.thread thread) pc'.carries :=
  State.move_places Pc.notified_carries hmodels

/-- Who keeps a scheduler after a thread has moved, with the slots as they were. -/
theorem State.move_keeps_same (hmodels : registry'.models_ = s.registry_.models_) :
    (s.move thread (registry', pc')).keeps = Function.update s.keeps (.thread thread) pc'.carries :=
  State.move_places_same Pc.notified_carries hmodels

/-- The slots are left alone, and the thread has in hand what it had. -/
theorem State.Keeping.same (hkeeping : s.Keeping) (hmodels : registry'.models_ = s.registry_.models_)
    (hcarries : pc'.carries = (s.threads thread).carries)
    (hqueue : registry'.retire_queue_ = s.registry_.retire_queue_)
    (hnext : s.registry_.next_scheduler ≤ registry'.next_scheduler) : (s.move thread (registry', pc')).Keeping := by
  have hsame : (s.move thread (registry', pc')).keeps = s.keeps := by
    rw [State.move_keeps_same hmodels, hcarries]
    exact Function.update_eq_self (Place.thread thread) s.keeps
  refine ⟨?_, ?_⟩
  · rw [hsame, State.move_registry_, hqueue]
    exact hkeeping.custody.mono hnext
  · rw [State.move_registry_, hqueue]
    exact hkeeping.once

/-- A slot is replaced by one published with the same scheduler or none, by a
thread that ends with empty hands. -/
theorem State.Keeping.slot (hkeeping : s.Keeping) {slot' : Option ModelSlot}
    (hmodels : registry'.models_ = Function.update s.registry_.models_ model_name slot')
    (hslot' : ∀ scheduler, slot'.bind ModelSlot.published = some scheduler →
      s.keeps (.slot model_name) = some scheduler)
    (hcarries : pc'.carries = none) (hqueue : registry'.retire_queue_ = s.registry_.retire_queue_)
    (hnext : registry'.next_scheduler = s.registry_.next_scheduler) : (s.move thread (registry', pc')).Keeping := by
  refine ⟨?_, ?_⟩
  · rw [State.move_registry_, hqueue, hnext]
    refine hkeeping.custody.shrink ?_ (fun _ hmem => .inl hmem)
    intro place scheduler hplace
    rw [State.move_keeps hmodels, hcarries] at hplace
    obtain ⟨rfl, hslot⟩ | ⟨-, hbefore⟩ := update_eq_some_iff.mp (update_none_eq_some_iff.mp hplace).2
    · exact hslot' scheduler hslot
    · exact hbefore
  · rw [State.move_registry_, hqueue]
    exact hkeeping.once

/-- A thread publishes what it has in hand, and takes what was published. -/
theorem State.Keeping.publish (hkeeping : s.Keeping) {slot' : ModelSlot}
    (hmodels : registry'.models_ = Function.update s.registry_.models_ model_name (some slot'))
    (hslot' : slot'.published = (s.threads thread).carries) (hcarries : pc'.carries = s.keeps (.slot model_name))
    (hqueue : registry'.retire_queue_ = s.registry_.retire_queue_)
    (hnext : registry'.next_scheduler = s.registry_.next_scheduler) : (s.move thread (registry', pc')).Keeping := by
  have hswap := hkeeping.custody.swap (.thread thread) (.slot model_name)
  refine ⟨?_, ?_⟩
  · rw [State.move_registry_, hqueue, hnext, State.move_keeps hmodels, Option.bind_some, hslot', hcarries]
    exact hswap
  · rw [State.move_registry_, hqueue]
    exact hkeeping.once

/-- What a place kept is retired. -/
theorem State.Keeping.retire (hkeeping : s.Keeping) {s' : State} {place : Place} {scheduler : Option Scheduler}
    (hplace : s.keeps place = scheduler.map (·.id)) (hkeeps : s'.keeps = Function.update s.keeps place none)
    (hqueue : s'.registry_.retire_queue_ = (s.registry_.retire scheduler).retire_queue_)
    (hnext : s'.registry_.next_scheduler = s.registry_.next_scheduler) : s'.Keeping := by
  refine ⟨?_, ?_⟩
  · rw [hnext, hqueue]
    refine hkeeping.custody.shrink ?_ ?_
    · intro other held hother
      rw [hkeeps] at hother
      exact (update_none_eq_some_iff.mp hother).2
    · intro held hmem
      obtain ⟨retired, rfl, rfl⟩ | hmem := ModelRegistry.mem_retire.mp hmem
      · refine .inr ⟨place, hplace, ?_⟩
        rw [hkeeps, Function.update_self]
      · exact .inl hmem
  · rw [hqueue]
    cases scheduler with
    | none => exact hkeeping.once
    | some retired => exact List.nodup_cons.mpr ⟨hkeeping.custody.live place retired.id hplace, hkeeping.once⟩

/-- No step lets a scheduler into two places, or retires one twice. -/
theorem Effect.keeping (hinv : s.Inv) (hkeeping : s.Keeping)
    (heffect : Effect s.registry_ (s.threads thread) registry' pc') : (s.move thread (registry', pc')).Keeping := by
  generalize hpc : s.threads thread = pc at heffect
  cases heffect with
  | stay hholds hnext hnext' hretires =>
    refine hkeeping.same rfl ?_ rfl (Nat.le_refl _)
    rw [hpc, Pc.carries, Pc.carries, Pc.serves, Pc.serves, Pc.displaced, Pc.displaced, hnext, hnext', hretires]
  | reserved config prebuilt hslot =>
    refine hkeeping.slot rfl ?_ rfl rfl rfl
    rintro scheduler ⟨⟩
  | begun call prebuilt slot hkind hslot hidle =>
    refine hkeeping.slot rfl ?_ rfl rfl rfl
    intro scheduler hpublished
    rw [State.keeps_slot hslot]
    exact hpublished
  | built call prebuilt backend workers =>
    have hcarries : (Pc.finishing call (call.built prebuilt backend workers s.registry_.next_scheduler)).carries =
        (Pc.finishing call (call.built prebuilt backend workers s.registry_.next_scheduler)).serves :=
      Option.or_none
    obtain hserves | hserves := call.built_scheduler prebuilt backend workers s.registry_.next_scheduler
    · refine hkeeping.same rfl ?_ rfl (Nat.le_succ _)
      rw [hcarries, hserves, hpc]
      rfl
    · have hmodels : ({ s.registry_ with next_scheduler := s.registry_.next_scheduler + 1 } :
          ModelRegistry).models_ = s.registry_.models_ := rfl
      refine ⟨?_, hkeeping.once⟩
      rw [State.move_keeps_same hmodels, hcarries, hserves]
      exact hkeeping.custody.create (.thread thread)
  | loaded config next slot hslot hstate hpending =>
    refine hkeeping.publish rfl ?_ ?_ rfl rfl
    · rw [hpc, ModelSlot.publishSnapshot_published]
      exact Option.or_none.symm
    · rw [State.keeps_slot hslot]
      obtain ⟨-, hscheduler, -, hpublished⟩ := (hinv.phased _ slot hslot).of_loading hstate
      rw [ModelSlot.published_of hpublished, hscheduler]
      rfl
  | replaced call next slot hkind hslot hpending hnext =>
    refine hkeeping.publish rfl ?_ ?_ rfl rfl
    · rw [hpc]
      exact Option.or_none.symm
    · rw [State.keeps_slot hslot]
      rfl
  | rejected call next slot hkind hslot hpending hnext =>
    refine hkeeping.slot rfl ?_ rfl rfl rfl
    intro scheduler hpublished
    obtain ⟨held, hscheduler, rfl⟩ := Option.map_eq_some_iff.mp hpublished
    rw [State.keeps_slot hslot]
    exact (hinv.phased _ slot hslot).published_of_scheduler hscheduler
  | resolved call slot hslot hflight =>
    refine hkeeping.slot rfl ?_ rfl rfl rfl
    intro scheduler hpublished
    obtain ⟨held, hscheduler, rfl⟩ := Option.map_eq_some_iff.mp hpublished
    rw [State.keeps_slot hslot]
    exact (hinv.phased _ slot hslot).published_of_scheduler hscheduler
  | retired call answer old_snapshot =>
    refine @State.Keeping.retire s hkeeping _ (.thread thread) (old_snapshot.bind (·.scheduler)) ?_ ?_ rfl rfl
    · change (s.threads thread).carries = _
      rw [hpc]
      rfl
    · exact State.move_keeps_same rfl
  | erased model_name slot hslot hstate hpending =>
    refine hkeeping.slot rfl ?_ rfl rfl rfl
    rintro scheduler ⟨⟩
  | drained model_name whole slot scheduler hslot hpending hstate hscheduler hpc' =>
    obtain ⟨-, hnext, hretires⟩ := hpc'
    refine hkeeping.slot rfl ?_ ?_ rfl rfl
    · intro held hpublished
      obtain ⟨served, hserved, rfl⟩ := Option.map_eq_some_iff.mp hpublished
      rw [State.keeps_slot hslot]
      exact (hinv.phased _ slot hslot).published_of_scheduler hserved
    · rw [Pc.carries, Pc.serves, Pc.displaced, hnext, hretires]
      rfl
  | completed model_name whole slot scheduler hslot hpending hstate hscheduler =>
    refine @State.Keeping.retire s hkeeping _ (.slot model_name) (some scheduler) ?_ ?_ rfl rfl
    · rw [State.keeps_slot hslot]
      exact (hinv.phased _ slot hslot).published_of_scheduler hscheduler
    · have hthread : s.keeps (.thread thread) = none := by
        change (s.threads thread).carries = none
        rw [hpc]
        rfl
      have hkeeps := @State.move_keeps s thread
        ((((s.registry_.stopAccepting (some scheduler)).retire (some scheduler)).eraseSlot model_name))
        (.returned none (some true)) model_name none rfl
      rw [hkeeps]
      change Function.update (Function.update s.keeps (.slot model_name) none) (.thread thread) none = _
      rw [← hthread]
      exact Function.update_eq_self (Place.thread thread) _

/-- A scheduler that a slot was published with is so still, or was taken down by a
thread, or retired. -/
def State.Kept (s : State) (model_name : String) (scheduler : Nat) : Prop :=
  s.keeps (.slot model_name) = some scheduler ∨ (∃ thread, (s.threads thread).displaced = some scheduler) ∨
    scheduler ∈ s.registry_.retire_queue_

/-- The thread closes a replacement that did not come up over a slot that has
parted with its scheduler: publishing it, nobody names that scheduler any more. -/
def State.loses (s : State) (thread : Nat) : Bool :=
  match s.threads thread with
  | .finishing call next =>
    next.state ≠ .ready && (s.registry_.models_ call.model_name).any ModelSlot.bereft
  | .guarding call => (s.registry_.models_ call.model_name).any ModelSlot.bereft
  | _ => false

/-- A scheduler stays kept when a thread moves. -/
theorem State.Kept.move {scheduler : Nat} (hkept : s.Kept model_name scheduler)
    (hslot : s.keeps (.slot model_name) = some scheduler →
      (s.move thread (registry', pc')).Kept model_name scheduler)
    (hself : (s.threads thread).displaced = some scheduler →
      pc'.displaced = some scheduler ∨ scheduler ∈ registry'.retire_queue_)
    (hqueue : scheduler ∈ s.registry_.retire_queue_ → scheduler ∈ registry'.retire_queue_) :
    (s.move thread (registry', pc')).Kept model_name scheduler := by
  obtain hpublished | ⟨other, hdisplaced⟩ | hmem := hkept
  · exact hslot hpublished
  · by_cases hother : other = thread
    · subst hother
      obtain hstill | hmem := hself hdisplaced
      · exact .inr (.inl ⟨other, by rw [State.move_threads_self, hstill]⟩)
      · exact .inr (.inr hmem)
    · refine .inr (.inl ⟨other, ?_⟩)
      rw [Pc.displaced, State.move_retires_ne hother]
      exact hdisplaced
  · exact .inr (.inr (hqueue hmem))

/-- What a slot publishes after a step, another slot or the one replaced. -/
theorem State.keeps_move {slot' : Option ModelSlot} {other : String}
    (hmodels : registry'.models_ = Function.update s.registry_.models_ model_name slot') :
    (s.move thread (registry', pc')).keeps (.slot other) =
      if other = model_name then slot'.bind ModelSlot.published else s.keeps (.slot other) := by
  rw [State.move_keeps hmodels, Function.update_of_ne (by simp)]
  by_cases hother : other = model_name
  · subst hother
    rw [Function.update_self, if_pos rfl]
  · rw [Function.update_of_ne (by simpa using hother), if_neg hother]

/-- One slot is replaced, by one that keeps what it was published with unless the
thread takes or retires it. -/
theorem State.Kept.replace {scheduler : Nat} {other : String} (hkept : s.Kept other scheduler)
    {slot' : Option ModelSlot}
    (hmodels : registry'.models_ = Function.update s.registry_.models_ model_name slot')
    (hslot' : s.keeps (.slot model_name) = some scheduler → slot'.bind ModelSlot.published = some scheduler ∨
      pc'.displaced = some scheduler ∨ scheduler ∈ registry'.retire_queue_)
    (hempty : (s.threads thread).displaced = none)
    (hqueue : scheduler ∈ s.registry_.retire_queue_ → scheduler ∈ registry'.retire_queue_) :
    (s.move thread (registry', pc')).Kept other scheduler := by
  refine hkept.move ?_ (fun hdisplaced => absurd (hempty.symm.trans hdisplaced) nofun) hqueue
  intro hpublished
  by_cases hother : other = model_name
  · subst hother
    obtain hstill | hdisplaced | hmem := hslot' hpublished
    · exact .inl (by rw [State.keeps_move hmodels, if_pos rfl, hstill])
    · exact .inr (.inl ⟨thread, by rw [State.move_threads_self, hdisplaced]⟩)
    · exact .inr (.inr hmem)
  · exact .inl (by rw [State.keeps_move hmodels, if_neg hother, hpublished])

/-- Schedulers are handed on until they are retired, unless a failed replacement
is published over one. -/
theorem Effect.kept (hinv : s.Inv) (heffect : Effect s.registry_ (s.threads thread) registry' pc')
    (hcloses : s.loses thread = false) {scheduler : Nat} (hkept : s.Kept model_name scheduler) :
    (s.move thread (registry', pc')).Kept model_name scheduler := by
  generalize hpc : s.threads thread = pc at heffect
  have hempty (hretires : pc.retires = none) : (s.threads thread).displaced = none := by
    rw [hpc, Pc.displaced, hretires]
    rfl
  have hsame (hmodels : registry'.models_ = s.registry_.models_)
      (hpublished : s.keeps (.slot model_name) = some scheduler) :
      (s.move thread (registry', pc')).Kept model_name scheduler := by
    left
    rw [State.move_keeps_same hmodels, Function.update_of_ne (by simp), hpublished]
  cases heffect with
  | stay hholds hnext hnext' hretires =>
    refine hkept.move (hsame rfl) ?_ id
    intro hdisplaced
    rw [hpc] at hdisplaced
    left
    rw [Pc.displaced, hretires]
    exact hdisplaced
  | reserved config prebuilt hslot =>
    refine hkept.replace rfl ?_ (hempty rfl) id
    intro hpublished
    change (s.registry_.models_ config.model_name).bind ModelSlot.published = some scheduler at hpublished
    rw [hslot] at hpublished
    cases hpublished
  | begun call prebuilt slot hkind hslot hidle =>
    refine hkept.replace rfl ?_ (hempty rfl) id
    intro hpublished
    rw [State.keeps_slot hslot] at hpublished
    exact .inl hpublished
  | built call prebuilt backend workers =>
    exact hkept.move (hsame rfl) (fun hdisplaced => absurd ((hempty rfl).symm.trans hdisplaced) nofun) id
  | loaded config next slot hslot hstate hpending =>
    refine hkept.replace rfl ?_ (hempty rfl) id
    intro hpublished
    rw [State.keeps_slot hslot] at hpublished
    obtain ⟨-, hscheduler, -, hslotPublished⟩ := (hinv.phased _ slot hslot).of_loading hstate
    rw [ModelSlot.published_of hslotPublished, hscheduler] at hpublished
    cases hpublished
  | replaced call next slot hkind hslot hpending hnext =>
    refine hkept.replace rfl ?_ (hempty rfl) id
    intro hpublished
    rw [State.keeps_slot hslot] at hpublished
    exact .inr (.inl hpublished)
  | rejected call next slot hkind hslot hpending hnext =>
    refine hkept.replace rfl ?_ (hempty rfl) id
    intro hpublished
    rw [State.keeps_slot hslot] at hpublished
    have hbereft : slot.bereft = false := by
      simpa [State.loses, hpc, hnext, hslot] using hcloses
    left
    rw [(hinv.phased _ slot hslot).published_eq hbereft] at hpublished
    exact hpublished
  | resolved call slot hslot hflight =>
    refine hkept.replace rfl ?_ (hempty rfl) id
    intro hpublished
    rw [State.keeps_slot hslot] at hpublished
    have hbereft : slot.bereft = false := by
      simpa [State.loses, hpc, hslot] using hcloses
    left
    rw [(hinv.phased _ slot hslot).published_eq hbereft] at hpublished
    exact hpublished
  | retired call answer old_snapshot =>
    refine hkept.move (hsame rfl) ?_ (fun hmem => ModelRegistry.mem_retire.mpr (.inr hmem))
    intro hdisplaced
    rw [hpc] at hdisplaced
    right
    obtain ⟨held, hheld, rfl⟩ := Option.map_eq_some_iff.mp hdisplaced
    exact ModelRegistry.mem_retire.mpr (.inl ⟨held, hheld, rfl⟩)
  | erased name slot hslot hstate hpending =>
    refine hkept.replace rfl ?_ (hempty rfl) id
    intro hpublished
    rw [State.keeps_slot hslot] at hpublished
    obtain ⟨hscheduler, hslotPublished⟩ := (hinv.phased _ slot hslot).of_failed hstate
    rw [ModelSlot.published_of hslotPublished, hscheduler] at hpublished
    cases hpublished
  | drained name whole slot served hslot hpending hstate hscheduler hpc' =>
    refine hkept.replace rfl ?_ (hempty rfl) id
    intro hpublished
    rw [State.keeps_slot hslot, (hinv.phased _ slot hslot).published_of_scheduler hscheduler] at hpublished
    left
    change (slot.handle.scheduler).map (·.id) = some scheduler
    rw [hscheduler]
    exact hpublished
  | completed name whole slot served hslot hpending hstate hscheduler =>
    refine hkept.replace rfl ?_ (hempty rfl) (fun hmem => ModelRegistry.mem_retire.mpr (.inr hmem))
    intro hpublished
    rw [State.keeps_slot hslot, (hinv.phased _ slot hslot).published_of_scheduler hscheduler] at hpublished
    right
    right
    exact ModelRegistry.mem_retire.mpr (.inl ⟨served, rfl, Option.some.inj hpublished⟩)

end Move

/-- The steps that lose no scheduler. -/
def losesNothing (s : State) : Event → Bool
  | .thread thread _ => !s.loses thread
  | _ => true

/-- Every step keeps each scheduler in one place. -/
theorem State.Keeping.step {s s' : State} (hinv : s.Inv) (hkeeping : s.Keeping) {event : Event}
    (hstep : s.step event = some s') : s'.Keeping := by
  cases event with
  | thread thread action =>
    obtain ⟨registry', pc', heffect, -, rfl⟩ := hinv.effect hstep
    exact heffect.keeping hinv hkeeping
  | drainTask scheduler =>
    obtain ⟨-, rfl⟩ := State.step_drainTask hstep
    exact ⟨hkeeping.custody, hkeeping.once⟩
  | setRepositoryCatalog configs =>
    cases hstep
    exact ⟨hkeeping.custody, hkeeping.once⟩

/-- In every run each scheduler is kept in one place. -/
theorem keeping_reachable {s : State} (hreach : system.Reachable s) : s.Keeping := by
  refine hreach.invariant ?_ ?_
  · rintro s rfl
    refine ⟨⟨?_, ?_, nofun, ?_⟩, List.nodup_nil⟩
    · intro place _ _ hheld
      cases place <;> cases hheld
    · intro place _ hheld
      cases place <;> cases hheld
    · intro place _ hheld
      cases place <;> cases hheld
  · intro s event s' hreach hkeeping hstep
    exact hkeeping.step (inv_reachable hreach) hstep

/-- A kept scheduler stays so over a step that loses nothing. -/
theorem State.Kept.step {s s' : State} (hinv : s.Inv) {event : Event} (hloses : losesNothing s event = true)
    {model_name : String} {scheduler : Nat} (hkept : s.Kept model_name scheduler)
    (hstep : s.step event = some s') : s'.Kept model_name scheduler := by
  cases event with
  | thread thread action =>
    obtain ⟨registry', pc', heffect, -, rfl⟩ := hinv.effect hstep
    exact heffect.kept hinv (by simpa [losesNothing] using hloses) hkept
  | drainTask held =>
    obtain ⟨-, rfl⟩ := State.step_drainTask hstep
    exact hkept
  | setRepositoryCatalog configs =>
    cases hstep
    exact hkept

/-- A scheduler is the one of its slot. -/
def State.Holds (s : State) (model_name : String) (scheduler : Nat) : Prop :=
  ((s.registry_.models_ model_name).bind (·.handle.scheduler)).map (·.id) = some scheduler

instance (s : State) (model_name : String) (scheduler : Nat) : Decidable (s.Holds model_name scheduler) :=
  inferInstanceAs (Decidable (_ = _))

/-- A scheduler is about to be retired: by a thread that took it down, or once the
replacement in flight comes up for a slot that has parted with it. -/
def State.Retiring (s : State) (model_name : String) (scheduler : Nat) : Prop :=
  (∃ thread, (s.threads thread).displaced = some scheduler) ∨
    ∃ slot, s.registry_.models_ model_name = some slot ∧ slot.bereft = true ∧ slot.published = some scheduler

/-- The thread is in none of the registry's calls. -/
def Pc.isOutside : Pc → Bool
  | .idle => true
  | .returned _ _ => true
  | _ => false

/-- The slot that holds a scheduler keeps it. -/
theorem State.Inv.keeps_of_holds {s : State} (hinv : s.Inv) {model_name : String} {scheduler : Nat}
    (hholds : s.Holds model_name scheduler) : s.keeps (.slot model_name) = some scheduler := by
  obtain ⟨held, hheld, rfl⟩ := Option.map_eq_some_iff.mp hholds
  obtain ⟨slot, hslot, hscheduler⟩ := Option.bind_eq_some_iff.mp hheld
  rw [State.keeps_slot hslot, (hinv.phased _ slot hslot).published_of_scheduler hscheduler]

/-- A kept scheduler is held by its slot, about to be retired, or in the queue. -/
theorem State.Inv.kept_cases {s : State} (hinv : s.Inv) {model_name : String} {scheduler : Nat}
    (hkept : s.Kept model_name scheduler) :
    s.Holds model_name scheduler ∨ s.Retiring model_name scheduler ∨ scheduler ∈ s.registry_.retire_queue_ := by
  obtain hpublished | hdisplaced | hmem := hkept
  · obtain ⟨slot, hslot, hpublished⟩ := Option.bind_eq_some_iff.mp hpublished
    cases hbereft : slot.bereft with
    | true => exact .inr (.inl (.inr ⟨slot, hslot, hbereft, hpublished⟩))
    | false =>
      rw [(hinv.phased _ slot hslot).published_eq hbereft] at hpublished
      left
      unfold State.Holds
      rw [hslot, Option.bind_some, hpublished]
  · exact .inr (.inl (.inl hdisplaced))
  · exact .inr (.inr hmem)

/-- Once every call has returned nothing is left to be retired. -/
theorem State.Inv.not_retiring {s : State} (hinv : s.Inv) (houtside : ∀ thread, (s.threads thread).isOutside = true)
    (model_name : String) (scheduler : Nat) : ¬ s.Retiring model_name scheduler := by
  have hnone (thread : Nat) : (s.threads thread).retires = none ∧ (s.threads thread).holds = none := by
    have hpc := houtside thread
    generalize s.threads thread = pc at hpc
    cases pc <;> first | exact ⟨rfl, rfl⟩ | cases hpc
  rintro (⟨thread, hdisplaced⟩ | ⟨slot, hslot, hbereft, -⟩)
  · rw [Pc.displaced, (hnone thread).1] at hdisplaced
    cases hdisplaced
  · have hpending := (hinv.phased _ slot hslot).pending_of_bereft hbereft
    have hflight := slot.inFlight_reloadPending.mpr hpending
    rw [← ModelRegistry.inFlight_of_slot hslot] at hflight
    obtain ⟨thread, hholds⟩ := hinv.exclusive.held _ _ hflight
    rw [State.builds, (hnone thread).2] at hholds
    cases hholds

/-- No scheduler is retired twice or while a slot holds it. In runs that lose
none, one that was its slot's scheduler and is so no longer was retired once, or
is about to be; when every call has returned, it was. -/
theorem displaced_schedulers_retired_once {history : List State} {s : State}
    (hrun : (system.restrict fun s event => losesNothing s event = true).Run history s) :
    (∀ scheduler, s.registry_.retire_queue_.count scheduler ≤ 1) ∧
    (∀ model_name scheduler, s.Holds model_name scheduler → scheduler ∉ s.registry_.retire_queue_) ∧
    (∀ moment ∈ history, ∀ model_name scheduler, moment.Holds model_name scheduler →
      s.Holds model_name scheduler ∨ s.Retiring model_name scheduler ∨
        s.registry_.retire_queue_.count scheduler = 1) ∧
    ((∀ thread, (s.threads thread).isOutside = true) →
      ∀ model_name scheduler, ¬ s.Retiring model_name scheduler) := by
  have hinv := inv_reachable hrun.reachable.of_restrict
  have hkeeping := keeping_reachable hrun.reachable.of_restrict
  refine ⟨List.nodup_iff_count_le_one.mp hkeeping.once, ?_, ?_, hinv.not_retiring⟩
  · intro model_name scheduler hholds
    exact hkeeping.custody.live _ _ (hinv.keeps_of_holds hholds)
  · intro moment hmem model_name scheduler hholds
    have hinv' := inv_reachable (hrun.reachable_of_mem hmem).of_restrict
    have hkept : s.Kept model_name scheduler := by
      refine @System.Run.stable _ _ _ (fun s => s.Kept model_name scheduler) ?_ _ _ hrun moment hmem
        (.inl (hinv'.keeps_of_holds hholds))
      intro s event s' hreach hkept hstep
      exact hkept.step (inv_reachable hreach.of_restrict) hstep.2 hstep.1
    refine (hinv.kept_cases hkept).imp_right fun hrest => hrest.imp_right fun hmem => ?_
    exact List.count_eq_one_of_mem hkeeping.once hmem

/-- A model is loaded, told to drain, and reloaded in place of its unload. -/
def reloadedDraining (backend : BackendFactory) : List Event :=
  undisturbed 0 (.loadModel {}) (.serving { name := "demo", versions := ["1"] }) ++
    [.thread 0 (.start (.beginDrain "demo")), .thread 0 .run, .thread 0 .run] ++
    undisturbed 0 (.reload "demo" {}) backend

/-- A draining model is reloaded, and its old scheduler is retired. -/
theorem displaced_schedulers_retired_once_reloadedDraining :
    ∃ history s, System.trace (System.guarded losesNothing State.step) [] {}
        (reloadedDraining (.serving { name := "demo", versions := ["1"] })) = some (history, s) ∧
      (∃ moment ∈ history, moment.Holds "demo" 0) ∧ s.Holds "demo" 1 ∧
      (s.Retiring "demo" 0 ∨ s.registry_.retire_queue_.count 0 = 1) := by
  have hreplay : ∃ history s, System.trace (System.guarded losesNothing State.step) [] {}
        (reloadedDraining (.serving { name := "demo", versions := ["1"] })) = some (history, s) ∧
      history.any (fun moment => moment.Holds "demo" 0) = true ∧ s.Holds "demo" 1 := ⟨_, _, rfl, rfl, rfl⟩
  obtain ⟨history, s, htrace, hany, hholds⟩ := hreplay
  obtain ⟨moment, hmem, hheld⟩ := List.any_eq_true.mp hany
  have hheld : moment.Holds "demo" 0 := of_decide_eq_true hheld
  refine ⟨history, s, htrace, ⟨moment, hmem, hheld⟩, hholds, ?_⟩
  obtain ⟨-, -, hdisplaced, -⟩ := displaced_schedulers_retired_once (System.run_of_trace htrace).of_guarded
  rcases hdisplaced moment hmem "demo" 0 hheld with
    hstill | hrest
  · rw [State.Holds] at hstill hholds
    rw [hholds] at hstill
    cases hstill
  · exact hrest

/-- A thread that starts nothing stays outside. -/
theorem idle_of_replay {thread : Nat} {events : List Event} (hothers : ∀ action, .thread thread action ∉ events)
    {s s' : State} (hidle : s.threads thread = .idle) (hreplay : System.replay State.step s events = some s') :
    s'.threads thread = .idle := by
  induction events generalizing s with
  | nil =>
    cases hreplay
    exact hidle
  | cons event events ih =>
    obtain ⟨t, hstep, hrest⟩ := Option.bind_eq_some_iff.mp hreplay
    refine ih (fun action hmem => hothers action (List.mem_cons_of_mem event hmem)) ?_ hrest
    cases event with
    | thread other action =>
      have hne : thread ≠ other := by
        rintro rfl
        exact hothers action List.mem_cons_self
      obtain ⟨after, -, rfl⟩ := Option.map_eq_some_iff.mp hstep
      rw [State.move_threads_ne hne, hidle]
      split <;> rfl
    | drainTask scheduler =>
      obtain ⟨-, rfl⟩ := State.step_drainTask hstep
      exact hidle
    | setRepositoryCatalog configs =>
      cases hstep
      exact hidle

/-- The reload of a draining model fails: its scheduler is gone from the slot, and
was never retired, when no call is left that could. -/
theorem failed_reload_loses_scheduler :
    ∃ history s, system.Run history s ∧ (∃ moment ∈ history, moment.Holds "demo" 0) ∧ ¬ s.Holds "demo" 0 ∧
      s.registry_.retire_queue_ = [] ∧ ∀ thread, s.threads thread = .idle := by
  have hreplay : ∃ history s, System.trace State.step [] {} (reloadedDraining (.unavailable "no backend")) =
        some (history, s) ∧ System.replay State.step {} (reloadedDraining (.unavailable "no backend")) = some s ∧
      history.any (fun moment => moment.Holds "demo" 0) = true ∧
      (s.registry_.models_ "demo").bind (·.handle.scheduler) = none ∧
      s.registry_.retire_queue_ = [] ∧ s.threads 0 = .idle := ⟨_, _, rfl, rfl, rfl, rfl, rfl, rfl⟩
  obtain ⟨history, s, htrace, hreplay, hany, hnone, hqueue, hidle⟩ := hreplay
  obtain ⟨moment, hmem, hheld⟩ := List.any_eq_true.mp hany
  refine ⟨history, s, System.run_of_trace htrace, ⟨moment, hmem, of_decide_eq_true hheld⟩, ?_, hqueue, ?_⟩
  · rw [State.Holds, hnone]
    exact nofun
  · intro thread
    by_cases hthread : thread = 0
    · rw [hthread, hidle]
    · refine idle_of_replay ?_ rfl hreplay
      intro action hmem
      simp [reloadedDraining, undisturbed, hthread] at hmem

end neuriplo.registry
