import Xio.FileCache

/-!
The watched entries of the file cache. `inotifies_` has one entry for a watch descriptor, and
`inotify_add_watch` answers with one descriptor for a file whatever name it is given. Where no
file is cached under two names, the watched entries follow the files.
-/

namespace Xio.FileCache

open FileMgr Runs

/-! Which entry a watch descriptor stands for. -/

def Registered (service : Service) : Prop :=
  ∀ name fi, service.cache name = some fi → 0 < fi.inotifyId →
    service.inotifies fi.inotifyId = some fi

/-- The descriptor that `inotify_add_watch` answers with is not that of another entry: the file
is not in the cache under a second name as well. -/
def Unshared (setup : Setup) (system : System) : Op → Prop
  | .query name during refused =>
      lookup setup system.now system.service (stripped name) = none →
        ∀ wd notifier, watch setup refused (stripped name)
            (inspect setup system.now system.notifier.disk (stripped name))
            (system.notifier.apply during) = some (wd, notifier) →
          ∀ other fi, system.service.cache other = some fi → other ≠ stripped name →
            fi.inotifyId ≠ wd
  | _ => True

/-- A watched entry is what `stat` says now, with a watch on its inode, or an event for it is
among those of `queue`. -/
def Current (queue : List Int) (state : Service × Notifier) : Prop :=
  ∀ name fi, state.1.cache name = some fi → 0 < fi.inotifyId →
    fi.inotifyId ∈ queue ∨ ∃ stat, fi.found = some stat ∧ state.2.disk name = some stat ∧
      (fi.inotifyId, stat.ino) ∈ state.2.watches

section Registration
variable (setup : Setup) (history : List Moment)

theorem invalidate_clears (wd : Int) (state after : Service × Notifier)
    (fit : Fit setup history state) (registered : Registered state.1)
    (result : invalidate wd state = some after) :
    Registered after.1 ∧
      ∀ name fi, after.1.cache name = some fi →
        state.1.cache name = some fi ∧ (0 < fi.inotifyId → fi.inotifyId ≠ wd) := by
  obtain ⟨none, same⟩ | ⟨gone, there, same⟩ := invalidate_cases setup history wd state fit
  · rw [result, Option.some.injEq] at same
    subst same
    refine ⟨registered, fun name fi cached => ⟨cached, fun positive number => ?_⟩⟩
    have known := registered name fi cached positive
    rw [number, none] at known
    exact nomatch known
  · rw [result, Option.some.injEq] at same
    subst same
    have other : ∀ name fi, Function.update state.1.cache gone.filename none name = some fi →
        state.1.cache name = some fi ∧ (0 < fi.inotifyId → fi.inotifyId ≠ wd) := by
      intro name fi left
      obtain ⟨apart, cached⟩ := left_of_update _ _ _ _ left
      refine ⟨cached, fun positive number => apart ?_⟩
      have known := registered name fi cached positive
      rw [number, there, Option.some.injEq] at known
      rw [known, fit.1.keyed name fi cached]
    refine ⟨fun name fi left positive => ?_, other⟩
    obtain ⟨cached, apart⟩ := other name fi left
    exact (Function.update_of_ne (apart positive) ..).trans (registered name fi cached positive)

theorem rmWatch_keeps (notifier : Notifier) (wd : Int) :
    (notifier.rmWatch wd).disk = notifier.disk ∧
      (∀ watch ∈ notifier.watches, watch.1 ≠ wd → watch ∈ (notifier.rmWatch wd).watches) ∧
      ∀ event ∈ notifier.pending, event ∈ (notifier.rmWatch wd).pending := by
  unfold Notifier.rmWatch
  split
  · refine ⟨rfl, fun watch member apart => ?_, fun event member => List.mem_append_left _ member⟩
    exact List.mem_filter.mpr ⟨member, decide_eq_true apart⟩
  · exact ⟨rfl, fun _ member _ => member, fun _ member => member⟩

theorem invalidate_kernel (wd : Int) (state after : Service × Notifier)
    (result : invalidate wd state = some after) :
    after.2.disk = state.2.disk ∧
      (∀ watch ∈ state.2.watches, watch.1 ≠ wd → watch ∈ after.2.watches) ∧
      ∀ event ∈ state.2.pending, event ∈ after.2.pending := by
  unfold invalidate at result
  split at result
  · rw [Option.some.injEq] at result
    rw [result]
    exact ⟨rfl, fun _ member _ => member, fun _ member => member⟩
  · split at result
    · exact nomatch result
    · rw [Option.some.injEq] at result
      rw [← result]
      exact rmWatch_keeps state.2 wd

theorem invalidate_current (wd : Int) (queue : List Int) (state after : Service × Notifier)
    (fit : Fit setup history state) (registered : Registered state.1)
    (current : Current (wd :: queue) state) (result : invalidate wd state = some after) :
    Current queue after := by
  obtain ⟨_, clears⟩ := invalidate_clears setup history wd state after fit registered result
  obtain ⟨disk, watches, _⟩ := invalidate_kernel wd state after result
  intro name fi left positive
  obtain ⟨cached, apart⟩ := clears name fi left
  rcases current name fi cached positive with queued | ⟨stat, found, there, watched⟩
  · exact Or.inl ((List.mem_cons.mp queued).resolve_left (apart positive))
  · refine Or.inr ⟨stat, found, ?_, watches _ watched (apart positive)⟩
    rw [disk]
    exact there

theorem onFileChanged_current (events queue : List Int) (state after : Service × Notifier)
    (fit : Fit setup history state) (registered : Registered state.1) (nonzero : 0 ∉ events)
    (current : Current (events ++ queue) state)
    (result : onFileChanged events state = some after) :
    Registered after.1 ∧ Current queue after := by
  induction events generalizing state with
  | nil =>
      rw [onFileChanged, Option.some.injEq] at result
      rw [← result]
      exact ⟨registered, current⟩
  | cons wd rest ih =>
      rw [List.mem_cons, not_or] at nonzero
      rw [onFileChanged, if_neg (Ne.symm nonzero.1)] at result
      obtain ⟨next, here, kept⟩ := invalidate_fit setup history wd state fit
      rw [here] at result
      exact ih next kept (invalidate_clears setup history wd state next fit registered here).1
        nonzero.2 (invalidate_current setup history wd _ state next fit registered current here)
        result

theorem onFileChanged_registered (events : List Int) (state after : Service × Notifier)
    (fit : Fit setup history state) (registered : Registered state.1)
    (result : onFileChanged events state = some after) : Registered after.1 := by
  refine (onFileChanged_rule (fun state => Fit setup history state ∧ Registered state.1) ?_
    events state after ⟨fit, registered⟩ result).2
  rintro wd state after ⟨fit, registered⟩ here
  obtain ⟨next, same, kept⟩ := invalidate_fit setup history wd state fit
  rw [here, Option.some.injEq] at same
  exact ⟨same ▸ kept, (invalidate_clears setup history wd state after fit registered here).1⟩

end Registration

section Sharing
variable (setup : Setup) (system : System) (name : Filename) (during : Change) (refused : Bool)

theorem query_registered (sound : Sound setup system) (registered : Registered system.service)
    (unshared : Unshared setup system (.query name during refused)) :
    Registered (step setup system (.query name during refused)).1.service := by
  rw [step]
  obtain ⟨fi, _, result⟩ | ⟨miss, fi, service, notifier, result, cache, way⟩ :=
    query_cases setup system (stripped name) during refused sound
  · rw [result]
    exact registered
  rw [result]
  intro other entry cached positive
  change service.inotifies entry.inotifyId = some entry
  rcases entry_of_update _ _ _ _ _ (cache ▸ cached) with ⟨_, rfl⟩ | ⟨apart, old⟩
  · rcases way with ⟨rfl, _⟩ | ⟨wd, rfl, registers, _⟩
    · exact absurd positive (inspect_unwatched setup _ _ _)
    · rw [registers]
      exact Function.update_self ..
  · have known := registered other entry old positive
    rcases way with ⟨_, kept, _⟩ | ⟨wd, _, registers, answer⟩
    · rw [kept]
      exact known
    · rw [registers, Function.update_of_ne (unshared miss wd notifier answer other entry old apart)]
      exact known

theorem registered_unshared (sound : Sound setup system)
    (after : Registered (step setup system (.query name during refused)).1.service) :
    Unshared setup system (.query name during refused) := by
  intro miss wd next answer other entry cached apart number
  rw [step] at after
  obtain ⟨fi, hit, _⟩ | ⟨_, fi, service, notifier, result, cache, way⟩ :=
    query_cases setup system (stripped name) during refused sound
  · rw [miss] at hit
    contradiction
  rw [result] at after
  have positive := watch_positive setup system (stripped name) during refused next wd sound answer
  rcases way with ⟨_, _, _, none⟩ | ⟨wd', made, registers, answer'⟩
  · rw [answer] at none
    contradiction
  · rw [answer, Option.some.injEq, Prod.mk.injEq] at answer'
    have known : service.inotifies entry.inotifyId = some entry := by
      refine after other entry ?_ (number ▸ positive)
      change service.cache other = some entry
      rw [cache, Function.update_of_ne apart]
      exact cached
    rw [registers, number, ← answer'.1, Function.update_self, Option.some.injEq] at known
    have filename := sound.service.keyed other entry cached
    rw [← known, made] at filename
    exact apart (filename.symm.trans (setup.fileInfo.named _ _ _))

end Sharing

theorem step_registered (setup : Setup) (system : System) (op : Op) (sound : Sound setup system)
    (registered : Registered system.service) (unshared : Unshared setup system op) :
    Registered (step setup system op).1.service := by
  cases op with
  | query name during refused =>
      exact query_registered setup system name during refused sound registered unshared
  | change _ => exact registered
  | clock _ => exact registered
  | dispatch count =>
      change Registered (if setup.inotify then dispatch system count else system).service
      split
      · obtain ⟨after, result, _, whole⟩ := dispatch_eq setup system count sound
        rw [whole]
        exact onFileChanged_registered setup system.history _ _ after
          ⟨sound.service, queue_sound system.notifier count sound.notifier⟩ registered result
      · exact registered
  | overflow => exact registered

/-- `inotifies_` leads from each descriptor to the entry it was obtained for exactly as long as
no file that is already watched is taken into the cache under another name. -/
theorem registered_iff_unshared (setup : Setup) (disk : Disk) (now : ℚ) (ops : List Op) :
    Always (step setup) (fun system => Registered system.service) (start disk now) ops ↔
      Along (step setup) (Unshared setup) (start disk now) ops := by
  refine always_iff_along (step setup) (Unshared setup)
    (fun system => Sound setup system ∧ Registered system.service) _
    (fun _ held => held.2) ?_ ?_ _ ops
      ⟨start_sound setup disk now, fun _ _ cached => nomatch cached⟩
  · intro system op held unshared
    exact ⟨step_sound setup system op held.1,
      step_registered setup system op held.1 held.2 unshared⟩
  · intro system op held after
    cases op with
    | query name during refused =>
        exact registered_unshared setup system name during refused held.1 after
    | change _ => trivial
    | clock _ => trivial
    | dispatch _ => trivial
    | overflow => trivial

/-! What a watched entry says. -/

/-- The kernel reports every change of what `stat` says of a file. The mask of the watch has no
`IN_MODIFY`, so writing to a file is a change that is not reported. -/
def Reported (disk : Disk) (change : Change) : Prop :=
  ∀ name stat, disk name = some stat → change.disk name ≠ some stat →
    change.notified stat.ino = true ∨ change.removed stat.ino = true

/-- Changes are reported, none comes between `stat` and the watch, and the queue never fills. -/
def Observed (setup : Setup) (system : System) : Op → Prop
  | .query name during _ =>
      lookup setup system.now system.service (stripped name) = none →
        Reported system.notifier.disk during ∧
          during.disk (stripped name) = system.notifier.disk (stripped name)
  | .change change => Reported system.notifier.disk change
  | .overflow => False
  | _ => True

def Coherent (system : System) : Prop :=
  Current system.notifier.pending (system.service, system.notifier)

theorem apply_current (service : Service) (notifier : Notifier) (change : Change)
    (reported : Reported notifier.disk change)
    (current : Current notifier.pending (service, notifier)) :
    Current (notifier.apply change).pending (service, notifier.apply change) := by
  intro name fi cached positive
  rcases current name fi cached positive with queued | ⟨stat, found, there, watched⟩
  · exact Or.inl (List.mem_append_left _ queued)
  · by_cases event : change.notified stat.ino = true ∨ change.removed stat.ino = true
    · refine Or.inl (List.mem_append_right _
        (List.mem_map.mpr ⟨_, List.mem_filter.mpr ⟨watched, ?_⟩, rfl⟩))
      rw [Bool.or_eq_true]
      exact event
    · have same : change.disk name = some stat := by
        by_contra changed
        exact event (reported name stat there changed)
      rw [not_or, Bool.not_eq_true, Bool.not_eq_true] at event
      refine Or.inr ⟨stat, found, same, List.mem_filter.mpr ⟨watched, ?_⟩⟩
      rw [Bool.not_eq_true']
      exact event.2

theorem query_coherent (setup : Setup) (system : System) (name : Filename) (during : Change)
    (refused : Bool) (sound : Sound setup system) (coherent : Coherent system)
    (observed : Observed setup system (.query name during refused)) :
    Coherent (step setup system (.query name during refused)).1 := by
  rw [step]
  obtain ⟨fi, _, result⟩ | ⟨miss, fi, service, notifier, result, cache, way⟩ :=
    query_cases setup system (stripped name) during refused sound
  · rw [result]
    exact coherent
  obtain ⟨reported, steady⟩ := observed miss
  have later := apply_current system.service system.notifier during reported coherent
  rw [result]
  intro other entry cached positive
  change entry.inotifyId ∈ notifier.pending ∨ ∃ stat, entry.found = some stat ∧
    notifier.disk other = some stat ∧ (entry.inotifyId, stat.ino) ∈ notifier.watches
  rcases entry_of_update _ _ _ _ _ (cache ▸ cached) with ⟨same, rfl⟩ | ⟨_, unchanged⟩
  · rcases way with ⟨rfl, _⟩ | ⟨wd, rfl, _, answer⟩
    · exact absurd positive (inspect_unwatched setup _ _ _)
    · obtain ⟨_, added⟩ := watch_some setup _ refused _ _ notifier wd answer
      obtain ⟨stat, there, watched, disk, _⟩ := Notifier.addWatch_some _ notifier _ refused wd added
      refine Or.inr ⟨stat, ?_, ?_, watched⟩
      · exact (inspect_found setup _ _ _).trans (steady.symm.trans there)
      · rw [disk, same]
        exact there
  · have old := later other entry unchanged positive
    rcases way with ⟨_, _, rfl, _⟩ | ⟨wd, _, _, answer⟩
    · exact old
    · obtain ⟨_, added⟩ := watch_some setup _ refused _ _ notifier wd answer
      obtain ⟨_, _, _, disk, pending, watches, _⟩ :=
        Notifier.addWatch_some _ notifier _ refused wd added
      rw [disk, pending]
      rcases old with queued | ⟨stat, found, there, watched⟩
      · exact Or.inl queued
      · exact Or.inr ⟨stat, found, there, watches _ watched⟩

theorem dispatch_coherent (setup : Setup) (system : System) (count : Nat)
    (sound : Sound setup system) (registered : Registered system.service)
    (coherent : Coherent system) :
    Current (system.notifier.pending.drop count)
      ((dispatch system count).service, (dispatch system count).notifier) := by
  obtain ⟨after, result, _, whole⟩ := dispatch_eq setup system count sound
  rw [whole]
  refine (onFileChanged_current setup system.history _ _ _ after
    ⟨sound.service, queue_sound system.notifier count sound.notifier⟩ registered ?_ ?_ result).2
  · exact fun zero => sound.notifier.queued (List.mem_of_mem_take zero)
  · rw [List.take_append_drop]
    exact coherent

theorem onFileChanged_kernel (events : List Int) (state after : Service × Notifier)
    (result : onFileChanged events state = some after) :
    after.2.disk = state.2.disk ∧ ∀ event ∈ state.2.pending, event ∈ after.2.pending := by
  refine onFileChanged_rule (fun later => later.2.disk = state.2.disk ∧
    ∀ event ∈ state.2.pending, event ∈ later.2.pending) ?_ events state after
    ⟨rfl, fun _ member => member⟩ result
  rintro wd before later ⟨disk, queued⟩ here
  obtain ⟨same, _, kept⟩ := invalidate_kernel wd before later here
  exact ⟨same.trans disk, fun event member => kept event (queued event member)⟩

theorem current_mono (queue larger : List Int) (state : Service × Notifier)
    (within : ∀ event ∈ queue, event ∈ larger) (current : Current queue state) :
    Current larger state := by
  intro name fi cached positive
  exact (current name fi cached positive).imp_left (within _)

theorem dispatch_kernel (setup : Setup) (system : System) (count : Nat)
    (sound : Sound setup system) :
    (dispatch system count).notifier.disk = system.notifier.disk ∧
      ∀ event ∈ system.notifier.pending.drop count,
        event ∈ (dispatch system count).notifier.pending := by
  obtain ⟨after, result, _, whole⟩ := dispatch_eq setup system count sound
  rw [whole]
  exact onFileChanged_kernel _ _ after result

theorem step_coherent (setup : Setup) (system : System) (op : Op) (sound : Sound setup system)
    (registered : Registered system.service) (coherent : Coherent system)
    (observed : Observed setup system op) : Coherent (step setup system op).1 := by
  cases op with
  | query name during refused =>
      exact query_coherent setup system name during refused sound coherent observed
  | change change => exact apply_current _ _ change observed coherent
  | clock _ => exact coherent
  | dispatch count =>
      change Coherent (if setup.inotify then dispatch system count else system)
      split
      · exact current_mono _ _ _ (dispatch_kernel setup system count sound).2
          (dispatch_coherent setup system count sound registered coherent)
      · exact coherent
  | overflow => exact absurd observed id

/-- What a watched entry records is what `stat` says now, or an event for its watch waits to
be read; and once the events that wait have been read, it is what `stat` says now. -/
def Faithful (setup : Setup) (system : System) : Prop :=
  (∀ name fi, system.service.cache name = some fi → 0 < fi.inotifyId →
      fi.inotifyId ∈ system.notifier.pending ∨ fi.found = system.notifier.disk name) ∧
    ∀ name fi, (step setup system
        (.dispatch system.notifier.pending.length)).1.service.cache name = some fi →
      0 < fi.inotifyId → fi.found = system.notifier.disk name

theorem coherent_faithful (setup : Setup) (system : System) (sound : Sound setup system)
    (registered : Registered system.service) (coherent : Coherent system) :
    Faithful setup system := by
  constructor
  · intro name fi cached positive
    refine (coherent name fi cached positive).imp_right ?_
    rintro ⟨stat, found, there, _⟩
    exact found.trans there.symm
  · intro name fi cached positive
    change (if setup.inotify then dispatch system system.notifier.pending.length
      else system).service.cache name = some fi at cached
    split at cached
    · have current := dispatch_coherent setup system system.notifier.pending.length sound
        registered coherent
      rw [List.drop_length] at current
      obtain ⟨stat, found, there, _⟩ :=
        (current name fi cached positive).resolve_left List.not_mem_nil
      change (dispatch system system.notifier.pending.length).notifier.disk name = some stat
        at there
      rw [(dispatch_kernel setup system _ sound).1] at there
      exact found.trans there.symm
    · next plain => exact absurd (sound.service.plain name fi cached positive) plain

/-- The watched part of the cache follows the files, in whatever order queries, changes and
the reading of events come: on every run on which no file is watched under two names, every
change is reported and the queue does not fill, nothing is stale but what an unread event
is about to remove. -/
theorem watched_faithful (setup : Setup) (disk : Disk) (now : ℚ) (ops : List Op)
    (guarded : Along (step setup)
      (fun system op => Unshared setup system op ∧ Observed setup system op)
      (start disk now) ops) :
    Always (step setup) (Faithful setup) (start disk now) ops := by
  refine always_mono (step setup)
    (fun system => Sound setup system ∧ Registered system.service ∧ Coherent system) _
    (fun system held => coherent_faithful setup system held.1 held.2.1 held.2.2) _ ops ?_
  refine always_of_along (step setup) _ _ ?_ _ ops ⟨start_sound setup disk now,
    (fun _ _ cached => nomatch cached), (fun _ _ cached => nomatch cached)⟩ guarded
  rintro system op ⟨sound, registered, coherent⟩ ⟨unshared, observed⟩
  exact ⟨step_sound setup system op sound,
    step_registered setup system op sound registered unshared,
    step_coherent setup system op sound registered coherent observed⟩

theorem watched_faithful_chmod :
    let setup : Setup := ⟨⟨true, true, false, fun _ => none, []⟩, .plain, 10, true, 5⟩
    let disk : Disk := fun _ => some ⟨0, 7, 3⟩
    Always (step setup) (Faithful setup) (start disk 0)
      [.query ⟨[97], List.cons_ne_nil _ _⟩ ⟨disk, fun _ => false, fun _ => false⟩ false,
        .change ⟨fun _ => some ⟨1, 7, 3⟩, fun _ => true, fun _ => false⟩, .dispatch 1] := by
  intro setup disk
  refine watched_faithful setup disk 0 _ ⟨⟨?_, ?_⟩, ⟨trivial, ?_⟩, ⟨trivial, trivial⟩, trivial⟩
  · exact fun _ _ _ _ _ _ cached => nomatch cached
  · exact fun _ => ⟨fun _ _ same changed => absurd same changed, rfl⟩
  · exact fun _ _ _ _ => Or.inl rfl

end Xio.FileCache
