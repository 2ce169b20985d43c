import Mathlib.Algebra.Order.Field.Rat
import Mathlib.Logic.Function.Basic
import Xio.FileMgr
import Xio.Runs

/-!
The cache of `lib/FileMgr.cpp`: `query`, `isValid` and `onFileChanged`, with and without the
inotify branch. The class of the cached objects is not part of the repository; its
constructor is a parameter, and what the cache needs of it is written down as its laws. The
files, the watches and the queue of inotify events are the environment, and the files may
change while `query` is between `stat` and `inotify_add_watch`.
-/

namespace Xio.FileCache

open FileMgr Runs

abbrev Disk := List UInt8 → Option Stat

/-- The members and accessors of `FileInfo` that `query` reads or sets. -/
structure FileInfo where
  filename : List UInt8
  present : Bool
  stat : Stat
  cachedAt : ℚ
  inotifyId : Int
  mimetype : List UInt8
  etag : List UInt8

def FileInfo.found (fi : FileInfo) : Option Stat := if fi.present then some fi.stat else none

/-- A constructor of `FileInfo` that the cache can work with. -/
structure Constructor where
  construct : ℚ → Disk → List UInt8 → FileInfo
  /-- the object keeps the name it is constructed for -/
  named : ∀ now disk name, (construct now disk name).filename = name
  /-- it records what `stat` said -/
  inspected : ∀ now disk name, (construct now disk name).found = disk name
  /-- and when the loop had it said -/
  stamped : ∀ now disk name, (construct now disk name).cachedAt = now
  /-- and has no watch yet -/
  unwatched : ∀ now disk name, (construct now disk name).inotifyId = -1

def Constructor.plain : Constructor where
  construct now disk name := ⟨name, (disk name).isSome, (disk name).getD ⟨0, 0, 0⟩, now, -1, [], []⟩
  named _ _ _ := rfl
  inspected _ disk name := by cases disk name <;> simp [FileInfo.found]
  stamped _ _ _ := rfl
  unwatched _ _ _ := rfl

/-- `inotify` says whether `HAVE_SYS_INOTIFY_H` is defined, which the file itself undoes. -/
structure Setup where
  config : Config
  fileInfo : Constructor
  cacheTTL : Int
  inotify : Bool
  handle : Int

structure Service where
  cache : List UInt8 → Option FileInfo
  inotifies : Int → Option FileInfo

/-! The environment. -/

/-- A change of the files. The kernel reports an event of the mask for the inodes of
`notified`, and ends the watches of those that are `removed` with an event of their own. -/
structure Change where
  disk : Disk
  notified : Nat → Bool
  removed : Nat → Bool

structure Notifier where
  disk : Disk
  watches : List (Int × Nat)
  nextWd : Int
  pending : List Int

namespace Notifier

def apply (notifier : Notifier) (change : Change) : Notifier :=
  { notifier with
    disk := change.disk
    watches := notifier.watches.filter fun watch => !change.removed watch.2
    pending := notifier.pending ++
      (notifier.watches.filter fun watch =>
        change.notified watch.2 || change.removed watch.2).map Prod.fst }

/-- A file that is watched already is answered with the watch it has. -/
def addWatch (notifier : Notifier) (name : List UInt8) (refused : Bool) :
    Option (Int × Notifier) :=
  match notifier.disk name with
  | none => none
  | some stat =>
      if refused then none
      else
        match notifier.watches.find? fun watch => watch.2 = stat.ino with
        | some watch => some (watch.1, notifier)
        | none =>
            some (notifier.nextWd,
              { notifier with
                watches := (notifier.nextWd, stat.ino) :: notifier.watches
                nextWd := notifier.nextWd + 1 })

-- The end of a watch is an event itself, `IN_IGNORED`.
def rmWatch (notifier : Notifier) (wd : Int) : Notifier :=
  if wd ∈ notifier.watches.map Prod.fst then
    { notifier with
      watches := notifier.watches.filter fun watch => watch.1 ≠ wd
      pending := notifier.pending ++ [wd] }
  else notifier

/-- The queue is full: its events are lost, and one of the descriptor -1 stands for them. -/
def overflow (notifier : Notifier) : Notifier := { notifier with pending := [-1] }

end Notifier

/-! The service. -/

def isValid (setup : Setup) (now : ℚ) (fi : FileInfo) : Bool :=
  decide (0 < fi.inotifyId) || decide (now < fi.cachedAt + setup.cacheTTL)

/-- `query` reads the last character of the name, so there has to be one. -/
abbrev Filename := { name : List UInt8 // name ≠ [] }

def stripped (name : Filename) : List UInt8 :=
  if name.1.getLast name.2 = 47 then name.1.dropLast else name.1

-- `new FileInfo(*this, filename)`, then the two members that `query` sets itself.
def inspect (setup : Setup) (now : ℚ) (disk : Disk) (filename : List UInt8) : FileInfo :=
  let fi := setup.fileInfo.construct now disk filename
  { fi with
    mimetype := getMimetype setup.config filename
    etag := makeEtag setup.config fi.stat }

def lookup (setup : Setup) (now : ℚ) (service : Service) (filename : List UInt8) :
    Option FileInfo :=
  (service.cache filename).filter (isValid setup now)

def expire (setup : Setup) (filename : List UInt8) (service : Service) (notifier : Notifier) :
    Service × Notifier :=
  match service.cache filename with
  | none => (service, notifier)
  | some fi =>
      let cache := Function.update service.cache filename none
      if setup.inotify ∧ 0 ≤ fi.inotifyId then
        (⟨cache, Function.update service.inotifies fi.inotifyId none⟩,
          notifier.rmWatch fi.inotifyId)
      else (⟨cache, service.inotifies⟩, notifier)

def watch (setup : Setup) (refused : Bool) (filename : List UInt8) (fi : FileInfo)
    (notifier : Notifier) : Option (Int × Notifier) :=
  if setup.inotify ∧ setup.handle ≠ -1 ∧ fi.present then notifier.addWatch filename refused
  else none

def insert (setup : Setup) (refused : Bool) (filename : List UInt8) (fi : FileInfo)
    (service : Service) (notifier : Notifier) : FileInfo × Service × Notifier :=
  match watch setup refused filename fi notifier with
  | none => (fi, ⟨Function.update service.cache filename (some fi), service.inotifies⟩, notifier)
  | some (wd, notifier) =>
      let fi := { fi with inotifyId := wd }
      (fi, ⟨Function.update service.cache filename (some fi),
        Function.update service.inotifies wd (some fi)⟩, notifier)

/-- One event of the loop in `onFileChanged`. There is no result where `cache_.erase` is given
the end of the map. -/
def invalidate (wd : Int) (state : Service × Notifier) : Option (Service × Notifier) :=
  match state.1.inotifies wd with
  | none => some state
  | some fi =>
      match state.1.cache fi.filename with
      | none => none
      | some _ =>
          some (⟨Function.update state.1.cache fi.filename none,
            Function.update state.1.inotifies wd none⟩, state.2.rmWatch wd)

def onFileChanged : List Int → Service × Notifier → Option (Service × Notifier)
  | [], state => some state
  | wd :: rest, state =>
      if wd = 0 then some state else (invalidate wd state).bind (onFileChanged rest)

/-! The service among the files. -/

structure Moment where
  time : ℚ
  disk : Disk

/-- `history` has the moments at which files were inspected; nothing reads it. -/
structure System where
  service : Service
  notifier : Notifier
  now : ℚ
  history : List Moment
  undefined : Bool

def start (disk : Disk) (now : ℚ) : System :=
  ⟨⟨fun _ => none, fun _ => none⟩, ⟨disk, [], 1, []⟩, now, [], false⟩

inductive Op where
  | query (name : Filename) (during : Change) (refused : Bool)
  | change (change : Change)
  | clock (time : ℚ)
  | dispatch (count : Nat)
  | overflow

def query (setup : Setup) (system : System) (filename : List UInt8) (during : Change)
    (refused : Bool) : System × Option FileInfo :=
  match lookup setup system.now system.service filename with
  | some fi => (system, some fi)
  | none =>
      let (service, notifier) := expire setup filename system.service system.notifier
      let fi := inspect setup system.now notifier.disk filename
      let (fi, service, notifier) :=
        insert setup refused filename fi service (notifier.apply during)
      ({ system with
          service, notifier
          history := ⟨system.now, system.notifier.disk⟩ :: system.history }, some fi)

def dispatch (system : System) (count : Nat) : System :=
  let events := system.notifier.pending.take count
  let notifier := { system.notifier with pending := system.notifier.pending.drop count }
  match onFileChanged events (system.service, notifier) with
  | none => { system with notifier, undefined := true }
  | some (service, notifier) => { system with service, notifier }

def step (setup : Setup) : Machine System Op (Option FileInfo)
  | system, .query name during refused =>
      query setup system (stripped name) during refused
  | system, .change change =>
      ({ system with notifier := system.notifier.apply change }, none)
  | system, .clock time => ({ system with now := time }, none)
  | system, .dispatch count => (if setup.inotify then dispatch system count else system, none)
  | system, .overflow => ({ system with notifier := system.notifier.overflow }, none)

/-! What holds of every run. -/

def Described (setup : Setup) (history : List Moment) (fi : FileInfo) : Prop :=
  ∃ moment ∈ history,
    { fi with inotifyId := -1 } = inspect setup moment.time moment.disk fi.filename

structure Service.Sound (setup : Setup) (history : List Moment) (bound : Int)
    (service : Service) : Prop where
  keyed : ∀ name fi, service.cache name = some fi → fi.filename = name
  described : ∀ name fi, service.cache name = some fi → Described setup history fi
  numbered : ∀ name fi, service.cache name = some fi →
    fi.inotifyId = -1 ∨ (0 < fi.inotifyId ∧ fi.inotifyId < bound)
  listed : ∀ wd fi, service.inotifies wd = some fi →
    0 < wd ∧ fi.inotifyId = wd ∧ service.cache fi.filename = some fi
  plain : ∀ name fi, service.cache name = some fi → 0 < fi.inotifyId → setup.inotify = true

structure Notifier.Sound (notifier : Notifier) : Prop where
  next : 0 < notifier.nextWd
  numbered : ∀ watch ∈ notifier.watches, 0 < watch.1 ∧ watch.1 < notifier.nextWd
  queued : 0 ∉ notifier.pending

structure Sound (setup : Setup) (system : System) : Prop where
  service : system.service.Sound setup system.history system.notifier.nextWd
  notifier : system.notifier.Sound
  defined : system.undefined = false

namespace Notifier

theorem apply_sound (notifier : Notifier) (change : Change) (sound : notifier.Sound) :
    (notifier.apply change).Sound := by
  refine ⟨sound.next, ?_, ?_⟩
  · intro watch member
    exact sound.numbered watch (List.mem_filter.mp member).1
  · intro member
    rcases List.mem_append.mp member with old | reported
    · exact sound.queued old
    · obtain ⟨watch, watched, zero⟩ := List.mem_map.mp reported
      have positive := (sound.numbered watch (List.mem_filter.mp watched).1).1
      exact absurd zero (ne_of_gt positive)

theorem addWatch_some (notifier after : Notifier) (name : List UInt8) (refused : Bool) (wd : Int)
    (answer : notifier.addWatch name refused = some (wd, after)) :
    ∃ stat, notifier.disk name = some stat ∧ (wd, stat.ino) ∈ after.watches ∧
      after.disk = notifier.disk ∧ after.pending = notifier.pending ∧
      (∀ watch ∈ notifier.watches, watch ∈ after.watches) ∧
      ((after = notifier ∧ (wd, stat.ino) ∈ notifier.watches) ∨
        (wd = notifier.nextWd ∧ after.nextWd = notifier.nextWd + 1 ∧
          after.watches = (wd, stat.ino) :: notifier.watches)) := by
  unfold addWatch at answer
  cases there : notifier.disk name with
  | none =>
      rw [there] at answer
      exact nomatch answer
  | some stat =>
      simp only [there] at answer
      refine ⟨stat, rfl, ?_⟩
      cases refused with
      | true => exact nomatch answer
      | false =>
          simp only [Bool.false_eq_true, if_false] at answer
          cases known : notifier.watches.find? fun watch => watch.2 = stat.ino with
          | some watch =>
              simp only [known, Option.some.injEq, Prod.mk.injEq] at answer
              obtain ⟨rfl, rfl⟩ := answer
              have member := List.mem_of_find?_eq_some known
              have inode : watch.2 = stat.ino := by simpa using List.find?_some known
              have whole : (watch.1, stat.ino) ∈ notifier.watches := by
                rw [← inode]
                exact member
              exact ⟨whole, rfl, rfl, fun _ kept => kept, Or.inl ⟨rfl, whole⟩⟩
          | none =>
              simp only [known, Option.some.injEq, Prod.mk.injEq] at answer
              obtain ⟨rfl, rfl⟩ := answer
              exact ⟨List.mem_cons_self, rfl, rfl, fun _ kept => List.mem_cons_of_mem _ kept,
                Or.inr ⟨rfl, rfl, rfl⟩⟩

theorem addWatch_sound (notifier after : Notifier) (name : List UInt8) (refused : Bool) (wd : Int)
    (sound : notifier.Sound) (answer : notifier.addWatch name refused = some (wd, after)) :
    after.Sound ∧ 0 < wd ∧ wd < after.nextWd ∧ notifier.nextWd ≤ after.nextWd := by
  obtain ⟨stat, _, _, _, pending, _, known | ⟨rfl, bound, watches⟩⟩ :=
    addWatch_some notifier after name refused wd answer
  · obtain ⟨rfl, member⟩ := known
    exact ⟨sound, (sound.numbered _ member).1, (sound.numbered _ member).2, le_rfl⟩
  · have next := sound.next
    refine ⟨⟨by omega, ?_, by rw [pending]; exact sound.queued⟩, next, by omega, by omega⟩
    intro watch member
    rw [watches] at member
    rcases List.mem_cons.mp member with rfl | old
    · exact ⟨next, by rw [bound]; exact Int.lt_succ _⟩
    · have range := sound.numbered watch old
      exact ⟨range.1, by omega⟩

theorem rmWatch_sound (notifier : Notifier) (wd : Int) (positive : 0 < wd)
    (sound : notifier.Sound) : (notifier.rmWatch wd).Sound := by
  unfold rmWatch
  split
  · refine ⟨sound.next, fun watch member => sound.numbered watch (List.mem_filter.mp member).1, ?_⟩
    intro member
    rcases List.mem_append.mp member with old | new
    · exact sound.queued old
    · exact absurd (List.mem_singleton.mp new) (ne_of_lt positive)
  · exact sound

theorem rmWatch_nextWd (notifier : Notifier) (wd : Int) :
    (notifier.rmWatch wd).nextWd = notifier.nextWd := by
  unfold rmWatch
  split <;> rfl

end Notifier

theorem entry_of_update {Key : Type} [DecidableEq Key] (map : Key → Option FileInfo)
    (key other : Key) (fi entry : FileInfo)
    (found : Function.update map key (some fi) other = some entry) :
    (other = key ∧ entry = fi) ∨ (other ≠ key ∧ map other = some entry) := by
  by_cases same : other = key
  · rw [same, Function.update_self, Option.some.injEq] at found
    exact Or.inl ⟨same, found.symm⟩
  · rw [Function.update_of_ne same] at found
    exact Or.inr ⟨same, found⟩

theorem inspect_unwatched (setup : Setup) (now : ℚ) (disk : Disk) (filename : List UInt8) :
    ¬ 0 < (inspect setup now disk filename).inotifyId := by
  simp only [inspect, setup.fileInfo.unwatched]
  decide

theorem inspect_reset (setup : Setup) (now : ℚ) (disk : Disk) (filename : List UInt8) :
    { inspect setup now disk filename with inotifyId := -1 } = inspect setup now disk filename := by
  simp only [inspect, ← setup.fileInfo.unwatched now disk filename]

theorem inspect_found (setup : Setup) (now : ℚ) (disk : Disk) (filename : List UInt8) :
    (inspect setup now disk filename).found = disk filename :=
  setup.fileInfo.inspected now disk filename

theorem described_later (setup : Setup) (history : List Moment) (moment : Moment) (fi : FileInfo)
    (described : Described setup history fi) : Described setup (moment :: history) fi := by
  obtain ⟨earlier, member, same⟩ := described
  exact ⟨earlier, List.mem_cons_of_mem _ member, same⟩

section Miss
variable (setup : Setup) (system : System) (filename : List UInt8)

theorem miss_unwatched (now : ℚ) (service : Service) (fi : FileInfo)
    (miss : lookup setup now service filename = none) (entry : service.cache filename = some fi) :
    ¬ 0 < fi.inotifyId := by
  intro positive
  have valid : isValid setup now fi = true := by simp [isValid, positive]
  have hit : lookup setup now service filename = some fi :=
    Option.filter_eq_some_iff.mpr ⟨entry, valid⟩
  rw [miss] at hit
  exact nomatch hit

theorem expire_eq (history : List Moment) (bound : Int) (now : ℚ) (service : Service)
    (notifier : Notifier) (sound : service.Sound setup history bound)
    (miss : lookup setup now service filename = none) :
    expire setup filename service notifier =
      (⟨Function.update service.cache filename none, service.inotifies⟩, notifier) := by
  unfold expire
  cases entry : service.cache filename with
  | none =>
      have same : Function.update service.cache filename none = service.cache := by
        rw [← entry]
        exact Function.update_eq_self ..
      rw [same]
  | some fi =>
      have unwatched : fi.inotifyId = -1 :=
        (sound.numbered filename fi entry).resolve_right fun range =>
          miss_unwatched setup filename now service fi miss entry range.1
      simp [unwatched]

theorem query_cases (during : Change) (refused : Bool) (sound : Sound setup system) :
    (∃ fi, lookup setup system.now system.service filename = some fi ∧
        query setup system filename during refused = (system, some fi)) ∨
      (lookup setup system.now system.service filename = none ∧
        ∃ fi service notifier,
          query setup system filename during refused =
            (⟨service, notifier, system.now,
              ⟨system.now, system.notifier.disk⟩ :: system.history, system.undefined⟩, some fi) ∧
          service.cache = Function.update system.service.cache filename (some fi) ∧
          ((fi = inspect setup system.now system.notifier.disk filename ∧
              service.inotifies = system.service.inotifies ∧
              notifier = system.notifier.apply during ∧
              watch setup refused filename (inspect setup system.now system.notifier.disk filename)
                (system.notifier.apply during) = none) ∨
            (∃ wd, fi = { inspect setup system.now system.notifier.disk filename with
                inotifyId := wd } ∧
              service.inotifies = Function.update system.service.inotifies wd (some fi) ∧
              watch setup refused filename (inspect setup system.now system.notifier.disk filename)
                (system.notifier.apply during) = some (wd, notifier)))) := by
  unfold query
  cases found : lookup setup system.now system.service filename with
  | some fi => exact Or.inl ⟨fi, rfl, rfl⟩
  | none =>
      refine Or.inr ⟨rfl, ?_⟩
      rw [expire_eq setup filename _ _ _ _ system.notifier sound.service found]
      simp only [insert]
      cases watched : watch setup refused filename
        (inspect setup system.now system.notifier.disk filename) (system.notifier.apply during) with
      | none =>
          exact ⟨_, _, _, rfl, Function.update_idem .., Or.inl ⟨rfl, rfl, rfl, rfl⟩⟩
      | some answer =>
          exact ⟨_, _, _, rfl, Function.update_idem .., Or.inr ⟨answer.1, rfl, rfl, rfl⟩⟩

theorem watch_some (refused : Bool) (fi : FileInfo) (notifier after : Notifier) (wd : Int)
    (answer : watch setup refused filename fi notifier = some (wd, after)) :
    setup.inotify = true ∧ notifier.addWatch filename refused = some (wd, after) := by
  unfold watch at answer
  split at answer
  next called => exact ⟨called.1, answer⟩
  next => exact nomatch answer

theorem miss_unlisted (sound : Sound setup system)
    (miss : lookup setup system.now system.service filename = none) (wd : Int) (entry : FileInfo)
    (registered : system.service.inotifies wd = some entry) : entry.filename ≠ filename := by
  intro same
  obtain ⟨positive, number, cached⟩ := sound.service.listed wd entry registered
  rw [same] at cached
  exact miss_unwatched setup filename system.now system.service entry miss cached
    (number ▸ positive)

structure Recorded (fi : FileInfo) (notifier : Notifier) : Prop where
  name : fi.filename = filename
  inspected : { fi with inotifyId := -1 } = inspect setup system.now system.notifier.disk filename
  numbered : fi.inotifyId = -1 ∨ (0 < fi.inotifyId ∧ fi.inotifyId < notifier.nextWd)
  plain : 0 < fi.inotifyId → setup.inotify = true
  kernel : notifier.Sound
  grows : system.notifier.nextWd ≤ notifier.nextWd

section Recording
variable (during : Change) (refused : Bool) (notifier : Notifier) (wd : Int)

theorem unwatched_recorded (sound : Sound setup system) :
    Recorded setup system filename (inspect setup system.now system.notifier.disk filename)
      (system.notifier.apply during) where
  name := setup.fileInfo.named _ _ _
  inspected := inspect_reset setup _ _ _
  numbered := Or.inl (setup.fileInfo.unwatched _ _ _)
  plain positive := absurd positive (inspect_unwatched setup _ _ _)
  kernel := system.notifier.apply_sound during sound.notifier
  grows := le_rfl

theorem watched_recorded (sound : Sound setup system)
    (answer : watch setup refused filename (inspect setup system.now system.notifier.disk filename)
      (system.notifier.apply during) = some (wd, notifier)) :
    Recorded setup system filename
      { inspect setup system.now system.notifier.disk filename with inotifyId := wd } notifier := by
  obtain ⟨enabled, added⟩ := watch_some setup filename refused _ _ notifier wd answer
  obtain ⟨kernel, positive, bounded, grows⟩ :=
    Notifier.addWatch_sound _ notifier filename refused wd
      (system.notifier.apply_sound during sound.notifier) added
  exact ⟨setup.fileInfo.named _ _ _, inspect_reset setup _ _ _, Or.inr ⟨positive, bounded⟩,
    fun _ => enabled, kernel, grows⟩

theorem watch_positive (sound : Sound setup system)
    (answer : watch setup refused filename (inspect setup system.now system.notifier.disk filename)
      (system.notifier.apply during) = some (wd, notifier)) : 0 < wd := by
  obtain ⟨_, added⟩ := watch_some setup filename refused _ _ notifier wd answer
  exact (Notifier.addWatch_sound _ notifier filename refused wd
    (system.notifier.apply_sound during sound.notifier) added).2.1

end Recording

end Miss

/-! Each operation keeps the invariant. -/

theorem query_sound (setup : Setup) (system : System) (filename : List UInt8) (during : Change)
    (refused : Bool) (sound : Sound setup system) :
    Sound setup (query setup system filename during refused).1 := by
  obtain ⟨fi, _, result⟩ | ⟨miss, fi, service, notifier, result, cache, way⟩ :=
    query_cases setup system filename during refused sound
  · rw [result]
    exact sound
  have recorded : Recorded setup system filename fi notifier := by
    rcases way with ⟨rfl, _, rfl, _⟩ | ⟨wd, rfl, _, answer⟩
    · exact unwatched_recorded setup system filename during sound
    · exact watched_recorded setup system filename during refused notifier wd sound answer
  have kept : ∀ wd entry, system.service.inotifies wd = some entry →
      0 < wd ∧ entry.inotifyId = wd ∧ service.cache entry.filename = some entry := by
    intro wd entry registered
    obtain ⟨positive, number, cached⟩ := sound.service.listed wd entry registered
    rw [cache, Function.update_of_ne
      (miss_unlisted setup system filename sound miss wd entry registered)]
    exact ⟨positive, number, cached⟩
  rw [result]
  refine ⟨⟨?_, ?_, ?_, ?_, ?_⟩, recorded.kernel, sound.defined⟩
  · intro other entry cached
    rcases entry_of_update _ _ _ _ _ (cache ▸ cached) with ⟨rfl, rfl⟩ | ⟨_, old⟩
    · exact recorded.name
    · exact sound.service.keyed other entry old
  · intro other entry cached
    rcases entry_of_update _ _ _ _ _ (cache ▸ cached) with ⟨rfl, rfl⟩ | ⟨_, old⟩
    · refine ⟨_, List.mem_cons_self, ?_⟩
      rw [recorded.inspected, recorded.name]
    · exact described_later setup _ _ entry (sound.service.described other entry old)
  · intro other entry cached
    rcases entry_of_update _ _ _ _ _ (cache ▸ cached) with ⟨rfl, rfl⟩ | ⟨_, old⟩
    · exact recorded.numbered
    · rcases sound.service.numbered other entry old with none | ⟨positive, bounded⟩
      · exact Or.inl none
      · exact Or.inr ⟨positive, lt_of_lt_of_le bounded recorded.grows⟩
  · intro number entry registered
    rcases way with ⟨_, same, _, _⟩ | ⟨wd, made, registers, answer⟩
    · exact kept number entry (same ▸ registered)
    · rcases entry_of_update _ _ _ _ _ (registers ▸ registered) with ⟨rfl, rfl⟩ | ⟨_, old⟩
      · have numbered : entry.inotifyId = number := congrArg FileInfo.inotifyId made
        have positive := watch_positive setup system filename during refused notifier number
          sound answer
        rw [cache, recorded.name]
        exact ⟨positive, numbered, Function.update_self ..⟩
      · exact kept number entry old
  · intro other entry cached positive
    rcases entry_of_update _ _ _ _ _ (cache ▸ cached) with ⟨rfl, rfl⟩ | ⟨_, old⟩
    · exact recorded.plain positive
    · exact sound.service.plain other entry old positive

def Fit (setup : Setup) (history : List Moment) (state : Service × Notifier) : Prop :=
  state.1.Sound setup history state.2.nextWd ∧ state.2.Sound

section Events
variable (setup : Setup) (history : List Moment)

theorem invalidate_cases (wd : Int) (state : Service × Notifier)
    (fit : Fit setup history state) :
    (state.1.inotifies wd = none ∧ invalidate wd state = some state) ∨
      ∃ fi, state.1.inotifies wd = some fi ∧
        invalidate wd state = some (⟨Function.update state.1.cache fi.filename none,
          Function.update state.1.inotifies wd none⟩, state.2.rmWatch wd) := by
  unfold invalidate
  cases registered : state.1.inotifies wd with
  | none => exact Or.inl ⟨rfl, rfl⟩
  | some fi =>
      refine Or.inr ⟨fi, rfl, ?_⟩
      simp only [(fit.1.listed wd fi registered).2.2]

theorem left_of_update {Key : Type} [DecidableEq Key] (map : Key → Option FileInfo)
    (erased key : Key) (entry : FileInfo)
    (left : Function.update map erased none key = some entry) :
    key ≠ erased ∧ map key = some entry := by
  by_cases same : key = erased
  · rw [same, Function.update_self] at left
    exact nomatch left
  · rw [Function.update_of_ne same] at left
    exact ⟨same, left⟩

theorem invalidate_fit (wd : Int) (state : Service × Notifier) (fit : Fit setup history state) :
    ∃ after, invalidate wd state = some after ∧ Fit setup history after := by
  obtain ⟨_, result⟩ | ⟨fi, registered, result⟩ := invalidate_cases setup history wd state fit
  · exact ⟨state, result, fit⟩
  refine ⟨_, result, ?_⟩
  obtain ⟨positive, number, cached⟩ := fit.1.listed wd fi registered
  refine ⟨⟨?_, ?_, ?_, ?_, ?_⟩, state.2.rmWatch_sound wd positive fit.2⟩
  · intro name entry left
    exact fit.1.keyed name entry (left_of_update _ _ _ _ left).2
  · intro name entry left
    exact fit.1.described name entry (left_of_update _ _ _ _ left).2
  · intro name entry left
    rw [state.2.rmWatch_nextWd wd]
    exact fit.1.numbered name entry (left_of_update _ _ _ _ left).2
  · intro other entry left
    obtain ⟨apart, known⟩ := left_of_update _ _ _ _ left
    obtain ⟨above, own, there⟩ := fit.1.listed other entry known
    have elsewhere : entry.filename ≠ fi.filename := by
      intro same
      rw [same, cached, Option.some.injEq] at there
      exact apart (by rw [← own, ← there, number])
    exact ⟨above, own, (Function.update_of_ne elsewhere ..).trans there⟩
  · intro name entry left
    exact fit.1.plain name entry (left_of_update _ _ _ _ left).2

theorem onFileChanged_fit (events : List Int) (state : Service × Notifier)
    (fit : Fit setup history state) :
    ∃ after, onFileChanged events state = some after ∧ Fit setup history after := by
  induction events generalizing state with
  | nil => exact ⟨state, rfl, fit⟩
  | cons wd rest ih =>
      unfold onFileChanged
      split
      · exact ⟨state, rfl, fit⟩
      · obtain ⟨next, result, kept⟩ := invalidate_fit setup history wd state fit
        rw [result]
        exact ih next kept

end Events

theorem onFileChanged_rule (holds : Service × Notifier → Prop)
    (kept : ∀ wd state after, holds state → invalidate wd state = some after → holds after)
    (events : List Int) (state after : Service × Notifier) (before : holds state)
    (result : onFileChanged events state = some after) : holds after := by
  induction events generalizing state with
  | nil =>
      rw [onFileChanged, Option.some.injEq] at result
      exact result ▸ before
  | cons wd rest ih =>
      unfold onFileChanged at result
      split at result
      · rw [Option.some.injEq] at result
        exact result ▸ before
      · obtain ⟨next, here, later⟩ := Option.bind_eq_some_iff.mp result
        exact ih next (kept wd state next before here) later

theorem queue_sound (notifier : Notifier) (count : Nat) (sound : notifier.Sound) :
    Notifier.Sound { notifier with pending := notifier.pending.drop count } :=
  ⟨sound.next, sound.numbered, fun member => sound.queued (List.mem_of_mem_drop member)⟩

theorem dispatch_eq (setup : Setup) (system : System) (count : Nat) (sound : Sound setup system) :
    ∃ after, onFileChanged (system.notifier.pending.take count) (system.service,
          { system.notifier with pending := system.notifier.pending.drop count }) = some after ∧
      Fit setup system.history after ∧
      dispatch system count = { system with service := after.1, notifier := after.2 } := by
  obtain ⟨after, result, fit⟩ := onFileChanged_fit setup system.history
    (system.notifier.pending.take count) (system.service,
      { system.notifier with pending := system.notifier.pending.drop count })
    ⟨sound.service, queue_sound system.notifier count sound.notifier⟩
  refine ⟨after, result, fit, ?_⟩
  simp only [dispatch, result]

theorem step_sound (setup : Setup) (system : System) (op : Op) (sound : Sound setup system) :
    Sound setup (step setup system op).1 := by
  cases op with
  | query name during refused =>
      exact query_sound setup system (stripped name) during refused sound
  | change change =>
      exact ⟨sound.service, system.notifier.apply_sound change sound.notifier, sound.defined⟩
  | clock time => exact ⟨sound.service, sound.notifier, sound.defined⟩
  | dispatch count =>
      change Sound setup (if setup.inotify then dispatch system count else system)
      split
      · obtain ⟨after, _, fit, result⟩ := dispatch_eq setup system count sound
        rw [result]
        exact ⟨fit.1, fit.2, sound.defined⟩
      · exact sound
  | overflow =>
      refine ⟨sound.service, ⟨sound.notifier.next, sound.notifier.numbered, ?_⟩, sound.defined⟩
      exact fun member => absurd (List.mem_singleton.mp member) (by decide)

theorem start_sound (setup : Setup) (disk : Disk) (now : ℚ) : Sound setup (start disk now) := by
  refine ⟨⟨?_, ?_, ?_, ?_, ?_⟩, ⟨Int.one_pos, ?_, ?_⟩, rfl⟩
  · exact fun _ _ cached => nomatch cached
  · exact fun _ _ cached => nomatch cached
  · exact fun _ _ cached => nomatch cached
  · exact fun _ _ registered => nomatch registered
  · exact fun _ _ cached => nomatch cached
  · exact fun _ member => nomatch member
  · exact fun member => nomatch member

theorem sound_along (setup : Setup) (disk : Disk) (now : ℚ) (ops : List Op) :
    Always (step setup) (Sound setup) (start disk now) ops :=
  always_of_along (step setup) (fun _ _ => True) (Sound setup)
    (fun system op sound _ => step_sound setup system op sound) _ ops
    (start_sound setup disk now) (along_of_forall _ _ _ ops fun _ _ _ => trivial)

/-- No order of queries, changes and events makes `onFileChanged` erase the end of the map. -/
theorem erase_defined (setup : Setup) (disk : Disk) (now : ℚ) (ops : List Op) :
    Always (step setup) (fun system => system.undefined = false) (start disk now) ops :=
  always_mono _ _ _ (fun _ sound => sound.defined) _ ops (sound_along setup disk now ops)

end Xio.FileCache
