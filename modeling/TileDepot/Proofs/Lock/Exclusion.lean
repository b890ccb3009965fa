import Mathlib.Logic.Function.Basic
import Mathlib.Logic.Relation
import TileDepot.Proofs.Lock.Files

/-!
# Parties that exclude each other

Any number of parties, each a process of its own, want locks on keys and share the directory of the lock files. What a party
does with the system comes in steps, and between two of them any other party may take some of its own, fail at a step, or crash.
Lock files come and go while others have them open: a party may lock a file whose name stands for another one by then.

What excludes the parties is this: whoever is inside has locked the file that the name stands for. No one else can remove the
name meanwhile, since only the owner of the file removes it, and it does so before it unlocks the file.
-/

namespace TileDepot

/-- The files when a holder has closed all that it had open: none of them is locked for it any longer. -/
def LockFiles.closeAll (files : LockFiles) (holder : Nat) : LockFiles :=
  { files with owners := files.owners.filter fun _ owner => owner != holder }

/-- How far a party has come. -/
inductive Stage where
  /-- It has no file open. -/
  | outside
  /-- It has opened a file. -/
  | opened (inode : Nat)
  /-- It has locked the file, and has yet to see whether the name still stands for it. -/
  | locked (inode : Nat)
  /-- Its attempt has succeeded: it holds the lock. -/
  | inside (inode : Nat)
  /-- It has begun to give the lock back, and is to remove the name. -/
  | leaving (inode : Nat)
  /-- It is to unlock the file. -/
  | unlocking (inode : Nat)
  /-- It is to close the file. -/
  | closing (inode : Nat)

namespace Stage

/-- The file that a party has open. -/
def file? : Stage → Option Nat
  | outside => none
  | opened inode | locked inode | inside inode | leaving inode | unlocking inode | closing inode => some inode

/-- What a stage says of the files: a party that has locked a file owns it, and while it is inside, and until it has removed the
name, the name stands for that file. -/
def Fits (path : String) (party : Nat) (files : LockFiles) : Stage → Prop
  | outside | opened _ | closing _ => True
  | locked inode | unlocking inode => files.owners[inode]? = some party
  | inside inode | leaving inode => files.owners[inode]? = some party ∧ files.names[path]? = some (.file inode)

end Stage

/-- What a party may do next, and the files then. -/
inductive Moves (path : String) (party : Nat) (unused : Nat → Prop) (files : LockFiles) : Stage → Stage → LockFiles → Prop where
  /-- It opens the name. If that makes a file, it may get any number that is not in use. -/
  | opens {number inode : Nat} {files' : LockFiles} (hnumber : unused number)
      (h : { files with next := number }.openPath path = .ok (inode, files')) :
      Moves path party unused files .outside (.opened inode) files'
  | locks {inode : Nat} {files' : LockFiles} (h : files.tryLock inode party none = .ok (some files')) :
      Moves path party unused files (.opened inode) (.locked inode) files'
  /-- Somebody else holds the file, or locking it fails. -/
  | locksNot {inode : Nat} : Moves path party unused files (.opened inode) (.closing inode) files
  /-- It finds that the name stands for the file. -/
  | enters {inode : Nat} (h : files.refersTo path inode = true) :
      Moves path party unused files (.locked inode) (.inside inode) files
  /-- It finds that the name does not stand for the file, or cannot find out. -/
  | entersNot {inode : Nat} : Moves path party unused files (.locked inode) (.unlocking inode) files
  /-- It begins to give the lock back. -/
  | leaves {inode : Nat} : Moves path party unused files (.inside inode) (.leaving inode) files
  | unlinks {inode : Nat} : Moves path party unused files (.leaving inode) (.unlocking inode) (files.unlink path).2
  | unlinksNot {inode : Nat} : Moves path party unused files (.leaving inode) (.unlocking inode) files
  | unlocks {inode : Nat} : Moves path party unused files (.unlocking inode) (.closing inode) (files.unlock inode)
  | unlocksNot {inode : Nat} : Moves path party unused files (.unlocking inode) (.closing inode) files
  | closes {inode : Nat} : Moves path party unused files (.closing inode) .outside (files.closeAll party)
  /-- It crashes: its files are closed for it, and nothing else is done. -/
  | crashes {stage : Stage} : Moves path party unused files stage .outside (files.closeAll party)

/-- The files of a directory, and the parties that share it. -/
structure Contest where
  files : LockFiles
  stage : Nat → Stage

namespace Contest

/-- Nobody has a file open, and no file is locked. Names may be left over from earlier parties. -/
structure Idle (contest : Contest) : Prop where
  outside : ∀ party : Nat, contest.stage party = .outside
  unlocked : contest.files.owners = ∅

/-- A number that a new file may get: no name stands for a file of that number, and nobody has one open. -/
structure IsUnused (contest : Contest) (inode : Nat) : Prop where
  unnamed : ∀ path : String, contest.files.names[path]? ≠ some (.file inode)
  closed : ∀ party : Nat, (contest.stage party).file? ≠ some inode

/-- What the contest is when a party has come to another stage. -/
def moved (contest : Contest) (party : Nat) (stage : Stage) (files : LockFiles) : Contest :=
  ⟨files, Function.update contest.stage party stage⟩

/-- One of the parties does something. Each has a lock file of its own key. -/
inductive Step (path : Nat → String) (contest : Contest) : Contest → Prop where
  | move {party : Nat} {stage : Stage} {files : LockFiles}
      (h : Moves (path party) party contest.IsUnused contest.files (contest.stage party) stage files) :
      Step path contest (contest.moved party stage files)

/-- What parties come to that find no file locked. -/
inductive Reachable (path : Nat → String) : Contest → Prop where
  | idle {contest : Contest} (h : contest.Idle) : Reachable path contest
  | step {contest contest' : Contest} (h : Reachable path contest) (hstep : Step path contest contest') : Reachable path contest'

/-- A party holds its lock: an attempt has succeeded, and it has not begun to give the lock back. -/
def IsInside (contest : Contest) (party : Nat) : Prop := ∃ inode : Nat, contest.stage party = .inside inode

/-- The stage of every party fits the files, and only who has a file open owns it. -/
structure Orderly (path : Nat → String) (contest : Contest) : Prop where
  fits : ∀ party : Nat, (contest.stage party).Fits (path party) party contest.files
  open_of_owner : ∀ (inode party : Nat), contest.files.owners[inode]? = some party → (contest.stage party).file? = some inode

end Contest

namespace LockFiles

variable {files files' : LockFiles} {path : String} {inode party : Nat}

/-- When a party closes its files, the files of all others stay owned. -/
theorem owners_closeAll_iff {owner : Nat} :
    (files.closeAll party).owners[inode]? = some owner ↔ files.owners[inode]? = some owner ∧ owner ≠ party := by
  change (files.owners.filter _)[inode]? = some owner ↔ _
  rw [Std.ExtTreeMap.getElem?_filter', Option.filter_eq_some_iff, bne_iff_ne]

/-- Who owns no file closes none that is locked. -/
theorem closeAll_of_owns_nothing (h : ∀ inode : Nat, files.owners[inode]? ≠ some party) : files.closeAll party = files := by
  have howners : (files.closeAll party).owners = files.owners := by
    refine Std.ExtTreeMap.ext_getElem? fun inode => Option.ext fun owner => ?_
    rw [owners_closeAll_iff]
    exact ⟨And.left, fun howner => ⟨howner, fun heq => h inode (heq ▸ howner)⟩⟩
  exact congrArg (LockFiles.mk files.names · files.next) howners

end LockFiles

/-! ## One step -/

namespace Moves

variable {path : String} {party inode : Nat} {unused : Nat → Prop} {files files' : LockFiles} {stage stage' : Stage}

/-- A party comes to a stage that fits the files. -/
theorem fits (h : Moves path party unused files stage stage' files') (hfits : stage.Fits path party files) :
    stage'.Fits path party files' := by
  cases h with
  | opens | locksNot | unlocks | unlocksNot | closes | crashes => trivial
  | locks hlock =>
    obtain ⟨-, rfl⟩ := LockFiles.tryLock_none_iff.mp hlock
    exact (Table.getElem?_insert _ _ _ _).trans (if_pos rfl)
  | enters hname => exact ⟨hfits, LockFiles.refersTo_iff.mp hname⟩
  | entersNot | leaves => exact hfits
  | unlinks => exact (congrArg (·[_]?) (LockFiles.owners_unlink files path)).trans hfits.1
  | unlinksNot => exact hfits.1

/-- What the others have locked stays locked for them. -/
theorem keeps_owner (h : Moves path party unused files stage stage' files') (hfits : stage.Fits path party files) {other : Nat}
    (hne : other ≠ party) (howner : files.owners[inode]? = some other) : files'.owners[inode]? = some other := by
  cases h with
  | opens _ hopen => rwa [LockFiles.owners_openPath hopen]
  | @locks locked _ hlock =>
    obtain ⟨hfree, rfl⟩ := LockFiles.tryLock_none_iff.mp hlock
    have hapart : locked ≠ inode := by
      rintro rfl
      rw [hfree] at howner
      cases howner
    exact ((Table.getElem?_insert _ _ _ _).trans (if_neg hapart)).trans howner
  | locksNot | enters | entersNot | leaves | unlinksNot | unlocksNot => exact howner
  | unlinks => rwa [LockFiles.owners_unlink]
  | @unlocks unlocked =>
    have hapart : unlocked ≠ inode := by
      rintro rfl
      exact hne (Option.some.inj (howner.symm.trans hfits))
    exact ((Table.getElem?_erase _ _ _).trans (if_neg hapart)).trans howner
  | closes | crashes => exact LockFiles.owners_closeAll_iff.mpr ⟨howner, hne⟩

/-- The name of a file that another party has locked goes on standing for it: who removes a name owns the file that it stands
for. -/
theorem keeps_name (h : Moves path party unused files stage stage' files') (hfits : stage.Fits path party files) {other : Nat}
    (hne : other ≠ party) (howner : files.owners[inode]? = some other) {name : String}
    (hname : files.names[name]? = some (.file inode)) : files'.names[name]? = some (.file inode) := by
  cases h with
  | opens _ hopen => exact LockFiles.names_openPath hopen hname
  | locks hlock =>
    obtain ⟨-, rfl⟩ := LockFiles.tryLock_none_iff.mp hlock
    exact hname
  | locksNot | enters | entersNot | leaves | unlinksNot | unlocks | unlocksNot | closes | crashes => exact hname
  | unlinks =>
    have hapart : path ≠ name := by
      rintro rfl
      obtain ⟨hown, hstands⟩ := hfits
      obtain rfl := FileEntry.file.inj (Option.some.inj (hstands.symm.trans hname))
      exact hne (Option.some.inj (howner.symm.trans hown))
    rwa [LockFiles.names_unlink files hapart]

/-- The stages of the others fit the files still. -/
theorem keeps_fits (h : Moves path party unused files stage stage' files') (hfits : stage.Fits path party files) {other : Nat}
    (hne : other ≠ party) {name : String} {standing : Stage} (hstanding : standing.Fits name other files) :
    standing.Fits name other files' := by
  cases standing with
  | outside | opened | closing => trivial
  | locked inode | unlocking inode => exact h.keeps_owner hfits hne hstanding
  | inside inode | leaving inode =>
    exact ⟨h.keeps_owner hfits hne hstanding.1, h.keeps_name hfits hne hstanding.1 hstanding.2⟩

/-- A file gets no other owner than who has locked it. -/
theorem owner_of_owner (h : Moves path party unused files stage stage' files') {owner : Nat}
    (howner : files'.owners[inode]? = some owner) :
    files.owners[inode]? = some owner ∨ owner = party ∧ stage'.file? = some inode := by
  cases h with
  | opens _ hopen => exact Or.inl (LockFiles.owners_openPath hopen ▸ howner)
  | @locks locked _ hlock =>
    obtain ⟨-, rfl⟩ := LockFiles.tryLock_none_iff.mp hlock
    change (files.owners.insert locked party)[inode]? = some owner at howner
    rw [Table.getElem?_insert] at howner
    split at howner
    · rename_i heq
      exact Or.inr ⟨(Option.some.inj howner).symm, congrArg some heq⟩
    · exact Or.inl howner
  | locksNot | enters | entersNot | leaves | unlinksNot | unlocksNot => exact Or.inl howner
  | unlinks => exact Or.inl (LockFiles.owners_unlink files path ▸ howner)
  | unlocks =>
    change (files.owners.erase _)[inode]? = some owner at howner
    rw [Table.getElem?_erase] at howner
    split at howner
    · cases howner
    · exact Or.inl howner
  | closes | crashes => exact Or.inl (LockFiles.owners_closeAll_iff.mp howner).1

/-- A party that owns a file and has moved has the file open still. -/
theorem open_of_owner (h : Moves path party unused files stage stage' files')
    (hopen : files.owners[inode]? = some party → stage.file? = some inode) (howner : files'.owners[inode]? = some party) :
    stage'.file? = some inode := by
  rcases h.owner_of_owner howner with hbefore | ⟨-, hfile⟩
  · have hstage := hopen hbefore
    cases h with
    | opens => cases hstage
    | locks | locksNot | enters | entersNot | leaves | unlinks | unlinksNot | unlocks | unlocksNot => exact hstage
    | closes | crashes => exact absurd rfl (LockFiles.owners_closeAll_iff.mp howner).2
  · exact hfile

end Moves

namespace Contest

variable {path : Nat → String} {contest contest' : Contest} {party : Nat} {stage : Stage} {files : LockFiles}

/-- A party that moves is where it has moved to. -/
theorem stage_moved_self : (contest.moved party stage files).stage party = stage := Function.update_self ..

/-- The other parties stay where they are. -/
theorem stage_moved_of_ne {other : Nat} (hne : other ≠ party) :
    (contest.moved party stage files).stage other = contest.stage other :=
  Function.update_of_ne hne ..

/-- Of two moves of a party the latter counts. -/
theorem moved_moved {stage' : Stage} {files' : LockFiles} :
    (contest.moved party stage files).moved party stage' files' = contest.moved party stage' files' :=
  congrArg (Contest.mk files') (Function.update_idem ..)

/-- A number stays unused as a party moves, unless the party makes or opens a file of that number. -/
theorem IsUnused.moved {number : Nat} (h : contest.IsUnused number)
    (hnames : ∀ name : String, files.names[name]? ≠ some (.file number)) (hfile : stage.file? ≠ some number) :
    (contest.moved party stage files).IsUnused number := by
  refine ⟨hnames, fun other heq => ?_⟩
  by_cases hother : other = party
  · rw [hother, stage_moved_self] at heq
    exact hfile heq
  · exact h.closed other (stage_moved_of_ne hother ▸ heq)

/-- A contest that nobody has entered is orderly. -/
theorem Idle.orderly (h : contest.Idle) : contest.Orderly path := by
  refine ⟨fun party => ?_, fun inode party howner => ?_⟩
  · rw [h.outside]
    trivial
  · rw [h.unlocked] at howner
    simp at howner

/-- A contest stays orderly with every step. -/
theorem Orderly.step (h : contest.Orderly path) (hstep : Step path contest contest') : contest'.Orderly path := by
  obtain @⟨mover, stage, files, hmove⟩ := hstep
  have hmover := h.fits mover
  refine ⟨fun party => ?_, fun inode party howner => ?_⟩
  · by_cases hparty : party = mover
    · rw [hparty, stage_moved_self]
      exact hmove.fits hmover
    · rw [stage_moved_of_ne hparty]
      exact hmove.keeps_fits hmover hparty (h.fits party)
  · by_cases hparty : party = mover
    · subst hparty
      rw [stage_moved_self]
      exact hmove.open_of_owner (h.open_of_owner inode party) howner
    · rw [stage_moved_of_ne hparty]
      rcases hmove.owner_of_owner howner with hbefore | ⟨heq, -⟩
      · exact h.open_of_owner inode party hbefore
      · exact absurd heq hparty

/-- A file that nobody has open has no owner. -/
theorem Orderly.unowned (h : contest.Orderly path) {number : Nat} (hunused : contest.IsUnused number) :
    contest.files.owners[number]? = none :=
  Option.eq_none_iff_forall_ne_some.mpr fun owner howner => hunused.closed owner (h.open_of_owner number owner howner)

/-! ## Any number of steps -/

/-- A contest that can be reached is orderly. -/
theorem Reachable.orderly (h : Reachable path contest) : contest.Orderly path := by
  induction h with
  | idle hidle => exact hidle.orderly
  | step _ hstep ih => exact ih.step hstep

/-- What is reached from what can be reached can be reached. -/
theorem Reachable.trans (h : Reachable path contest) (hsteps : Relation.ReflTransGen (Step path) contest contest') :
    Reachable path contest' := by
  induction hsteps with
  | refl => exact h
  | tail _ hstep ih => exact ih.step hstep

/-! ## What a party does without others between -/

/-- A step of a party that is known to be at a stage. -/
theorem step_of_stage {stage' : Stage} (hstage : contest.stage party = stage)
    (h : Moves (path party) party contest.IsUnused contest.files stage stage' files) :
    Step path contest (contest.moved party stage' files) :=
  .move (hstage ▸ h)

/-- One more step of a party that has taken some. -/
theorem steps_tail {stage' : Stage} {files' : LockFiles}
    (hsteps : Relation.ReflTransGen (Step path) contest (contest.moved party stage files))
    (h : Moves (path party) party (contest.moved party stage files).IsUnused files stage stage' files') :
    Relation.ReflTransGen (Step path) contest (contest.moved party stage' files') := by
  rw [← moved_moved]
  exact hsteps.tail (step_of_stage stage_moved_self h)

/-- The first step of a party that is outside: it opens the name of its lock file. -/
theorem steps_opens {number : Nat} (hnumber : contest.IsUnused number) (houtside : contest.stage party = .outside) {inode : Nat}
    (hopen : { contest.files with next := number }.openPath (path party) = .ok (inode, files)) :
    Relation.ReflTransGen (Step path) contest (contest.moved party (.opened inode) files) :=
  .single (step_of_stage houtside (.opens hnumber hopen))

/-- An attempt made at once is what a party comes to by steps of its own: it is inside then, or outside again. -/
theorem Orderly.attempt (h : contest.Orderly path) {number : Nat} (hnumber : contest.IsUnused number)
    (houtside : contest.stage party = .outside) {taken : Option Nat}
    (hattempt : { contest.files with next := number }.attempt (path party) party none = (.ok taken, files)) :
    Relation.ReflTransGen (Step path) contest (contest.moved party (taken.elim .outside .inside) files) := by
  obtain ⟨inode, opened, hopen, ⟨rfl, rfl⟩ | ⟨hlock, rfl⟩⟩ := LockFiles.attempt_none_cases hattempt
  · have hnothing : ∀ inode : Nat, files.owners[inode]? ≠ some party := by
      intro inode howner
      rw [LockFiles.owners_openPath hopen] at howner
      have hfile := h.open_of_owner inode party howner
      rw [houtside] at hfile
      cases hfile
    have hclosed := steps_tail (steps_tail (steps_opens hnumber houtside hopen) .locksNot) .closes
    rwa [LockFiles.closeAll_of_owns_nothing hnothing] at hclosed
  · have hlocked := steps_tail (steps_opens hnumber houtside hopen) (.locks hlock)
    exact steps_tail hlocked (.enters (LockFiles.refersTo_locked hopen hlock))

/-- So is giving a lock back at once. -/
theorem Orderly.release (h : contest.Orderly path) {inode : Nat} (hinside : contest.stage party = .inside inode) :
    Relation.ReflTransGen (Step path) contest (contest.moved party .outside (contest.files.release (path party) inode)) := by
  have hleft : Relation.ReflTransGen (Step path) contest (contest.moved party (.leaving inode) contest.files) :=
    .single (step_of_stage hinside .leaves)
  have hclosed := steps_tail (steps_tail (steps_tail hleft .unlinks) .unlocks) .closes
  have hnothing : ∀ other : Nat, (contest.files.release (path party) inode).owners[other]? ≠ some party := by
    intro other howner
    change ((contest.files.unlink (path party)).2.owners.erase inode)[other]? = some party at howner
    rw [LockFiles.owners_unlink, Table.getElem?_erase] at howner
    split at howner
    · cases howner
    · rename_i hne
      have hfile := h.open_of_owner other party howner
      rw [hinside] at hfile
      exact hne (Option.some.inj hfile)
  change Relation.ReflTransGen _ _ (contest.moved party .outside
    ((contest.files.release (path party) inode).closeAll party)) at hclosed
  rwa [LockFiles.closeAll_of_owns_nothing hnothing] at hclosed

/-! ## Exclusion -/

/-- Whatever any number of parties have done, step by step and in whatever order, with failures and crashes: of those that want
the lock on one key, at most one is inside. -/
theorem at_most_one_inside (directory : String) (key : Nat → String) (contest : Contest)
    (hreachable : Reachable (fun party => LockFiles.pathOf directory (key party)) contest) {party other : Nat}
    (hkey : key party = key other) (hparty : contest.IsInside party) (hother : contest.IsInside other) : party = other := by
  obtain ⟨inode, hstage⟩ := hparty
  obtain ⟨inode', hstage'⟩ := hother
  have hfits := hreachable.orderly.fits party
  have hfits' := hreachable.orderly.fits other
  rw [hstage] at hfits
  rw [hstage', ← hkey] at hfits'
  -- One name stands for one file, and a file has one owner.
  obtain rfl := FileEntry.file.inj (Option.some.inj (hfits.2.symm.trans hfits'.2))
  exact Option.some.inj (hfits.1.symm.trans hfits'.1)

/-- Why a party has another look at the name: when the one inside gives its lock back, whoever has opened its file may lock it
still, beside a third one that is inside with a new file. -/
theorem Reachable.stale (h : Reachable path contest) {waiter newcomer inode number : Nat}
    (hinside : contest.stage party = .inside inode) (hwaiter : contest.stage waiter = .opened inode)
    (hnewcomer : contest.stage newcomer = .outside) (hpath : path newcomer = path party) (hnumber : contest.IsUnused number) :
    ∃ contest' : Contest, Reachable path contest' ∧ contest'.stage waiter = .locked inode ∧
      contest'.stage newcomer = .inside number := by
  have hapart : ∀ {one other : Nat}, contest.stage one ≠ contest.stage other → one ≠ other :=
    fun hne heq => hne (congrArg contest.stage heq)
  have hnew : newcomer ≠ party := hapart (by rw [hinside, hnewcomer]; exact nofun)
  have hwait : waiter ≠ party := hapart (by rw [hinside, hwaiter]; exact nofun)
  have hthird : waiter ≠ newcomer := hapart (by rw [hnewcomer, hwaiter]; exact nofun)
  have hfits := h.orderly.fits party
  rw [hinside] at hfits
  let released := contest.files.release (path party) inode
  have hreleased : released = ⟨contest.files.names.erase (path party), contest.files.owners.erase inode, contest.files.next⟩ :=
    LockFiles.release_of_file hfits.2
  let left := contest.moved party .outside released
  have hleft : Reachable path left := h.trans (h.orderly.release hinside)
  have hunused : left.IsUnused number := by
    refine hnumber.moved (fun name heq => ?_) nofun
    rw [hreleased, Table.getElem?_erase] at heq
    split at heq
    · cases heq
    · exact hnumber.unnamed name heq
  have hgone : released.names[path newcomer]? = none := by
    rw [hreleased, hpath]
    exact (Table.getElem?_erase _ _ _).trans (if_pos rfl)
  have hfree : released.owners[number]? = none := hleft.orderly.unowned hunused
  let entered : LockFiles :=
    ⟨released.names.insert (path newcomer) (.file number), released.owners.insert number newcomer, number + 1⟩
  have hattempt : { released with next := number }.attempt (path newcomer) newcomer none = (.ok (some number), entered) :=
    LockFiles.attempt_of_free hgone hfree
  have hentered := hleft.trans (hleft.orderly.attempt hunused ((stage_moved_of_ne hnew).trans hnewcomer) hattempt)
  -- Nobody owns the file that the waiter has opened any longer, though no name stands for it.
  have hlock : entered.tryLock inode waiter none = .ok (some { entered with owners := entered.owners.insert inode waiter }) := by
    refine LockFiles.tryLock_none_iff.mpr ⟨?_, rfl⟩
    have hne : number ≠ inode := by
      rintro rfl
      exact hnumber.closed waiter (congrArg Stage.file? hwaiter)
    refine (Table.getElem?_insert _ _ _ _).trans ((if_neg hne).trans ?_)
    rw [hreleased]
    exact (Table.getElem?_erase _ _ _).trans (if_pos rfl)
  have hopened : (left.moved newcomer (.inside number) entered).stage waiter = .opened inode :=
    (stage_moved_of_ne hthird).trans ((stage_moved_of_ne hwait).trans hwaiter)
  refine ⟨_, hentered.step (step_of_stage hopened (.locks hlock)), stage_moved_self, ?_⟩
  exact (stage_moved_of_ne hthird.symm).trans stage_moved_self

/-- Beside a party that has locked a file whose name stands for another one, the party inside is the only one. -/
theorem at_most_one_inside_beside_stale_file :
    let path := LockFiles.pathOf "tiles/lockfiles" "page"
    ∃ contest : Contest, Reachable (fun _ => path) contest ∧ contest.stage 1 = .locked 0 ∧ contest.stage 2 = .inside 1 ∧
      ∀ party : Nat, contest.IsInside party → party = 2 := by
  intro path
  let idle : Contest := ⟨.empty, fun _ => .outside⟩
  have hidle : idle.Idle := ⟨fun _ => rfl, rfl⟩
  let files : LockFiles := ⟨LockFiles.empty.names.insert path (.file 0), LockFiles.empty.owners.insert 0 0, 1⟩
  let inside := idle.moved 0 (.inside 0) files
  have hinside : Reachable (fun _ => path) inside :=
    Reachable.trans (.idle hidle) (hidle.orderly.attempt ⟨nofun, nofun⟩ rfl (LockFiles.attempt_of_free rfl rfl))
  have hname : ∀ name : String, files.names[name]? = if path = name then some (.file 0) else none :=
    fun name => Table.getElem?_insert _ _ _ _
  have hnames : ∀ name : String, files.names[name]? ≠ some (.file 1) := by
    intro name heq
    rw [hname] at heq
    split at heq <;> cases heq
  have hunused : inside.IsUnused 1 := IsUnused.moved ⟨nofun, nofun⟩ hnames (by decide)
  let waiting := inside.moved 1 (.opened 0) { files with next := 1 }
  have hopen : { files with next := 1 }.openPath path = .ok (0, { files with next := 1 }) :=
    LockFiles.openPath_of_file ((hname path).trans (if_pos rfl))
  have hwaiting : Reachable (fun _ => path) waiting :=
    hinside.trans (steps_opens hunused (stage_moved_of_ne (by decide)) hopen)
  have hunused' : waiting.IsUnused 1 := hunused.moved hnames (by decide)
  have hholder : waiting.stage 0 = .inside 0 := (stage_moved_of_ne (by decide)).trans stage_moved_self
  have hthird : waiting.stage 2 = .outside := (stage_moved_of_ne (by decide)).trans (stage_moved_of_ne (by decide))
  obtain ⟨contest, hreachable, hlocked, hentered⟩ := hwaiting.stale hholder stage_moved_self hthird rfl hunused'
  refine ⟨contest, hreachable, hlocked, hentered, fun party hparty => ?_⟩
  exact at_most_one_inside "tiles/lockfiles" (fun _ => "page") contest hreachable rfl hparty ⟨1, hentered⟩

end Contest

end TileDepot
