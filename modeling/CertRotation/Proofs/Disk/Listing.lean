import CertRotation.Proofs.Disk.FileTree
import CertRotation.Proofs.Disk.Links

/-!
# Listing directories

A system lists a directory in an order of its own, and may list it in another order the next time.
That changes nothing about where paths lead and what can be read there, and a walk comes to the same
entries, if not in the same order.  Nor does it matter much where a walk starts: one that starts at
an entry below the start of another one comes to nothing new, unless the entry is a link, which only
the walk that starts there goes into.  What a closed directory holds is not on the way of any walk,
so for all this nothing has to be known about it.

* `Disk.Relists` — the same tree, listed in another order;
* `Disk.Relists.read_eq`, `Disk.Relists.exists_walk` — what is found there;
* `Disk.walk_subset` — **a walk that starts within another one**.
-/

set_option autoImplicit false

namespace CertRotation

namespace Disk

variable {disk disk' : Disk} {p q : Path}

/-! ## Another order -/

/-- The disk is the same tree, listed in another order. -/
structure Relists (disk' disk : Disk) : Prop where
  perm : disk'.entries.Perm disk.entries
  working : disk'.working = disk.working

theorem Relists.symm (h : Relists disk' disk) : Relists disk disk' :=
  ⟨h.perm.symm, h.working.symm⟩

theorem Relists.nodup (h : Relists disk' disk) (hnodup : (disk.entries.map Prod.fst).Nodup) :
    (disk'.entries.map Prod.fst).Nodup :=
  (h.perm.map Prod.fst).nodup_iff.2 hnodup

/-- The same stands everywhere. -/
theorem Relists.entry?_eq (h : Relists disk' disk)
    (hnodup : (disk.entries.map Prod.fst).Nodup) : disk'.entry? = disk.entry? := by
  funext place
  rcases eq_or_ne place [] with rfl | hne
  · rw [entry?_nil, entry?_nil]
  refine Option.ext fun entry => ⟨fun hentry => ?_, fun hentry => ?_⟩
  · exact entry?_of_mem hnodup hne (h.perm.mem_iff.1 (mem_entries hne hentry))
  · exact entry?_of_mem (h.nodup hnodup) hne (h.perm.mem_iff.2 (mem_entries hne hentry))

theorem walkNames_congr (h : disk'.entry? = disk.entry?) (last : LastName) (base : Location)
    (names : List Bytes) : disk'.walkNames last base names = disk.walkNames last base names := by
  induction names generalizing base with
  | nil => rfl
  | cons name names ih =>
    rw [walkNames, walkNames]
    have hdir : disk'.isDirAt base = disk.isDirAt base := by rw [isDirAt, isDirAt, h]
    simp only [hdir, lookupFault, h, ih]

theorem follow_congr (h : disk'.entry? = disk.entry?) (last : LastName) (links : Nat)
    (base : Location) (names : List Bytes) :
    disk'.follow last links base names = disk.follow last links base names := by
  induction links generalizing base names with
  | zero => rfl
  | succ links ih =>
    rw [follow, follow, walkNames_congr h]
    simp only [ih]

/-- Paths lead to the same places. -/
theorem Relists.locate_eq (h : Relists disk' disk) (hnodup : (disk.entries.map Prod.fst).Nodup)
    (last : LastName) (p : Path) : disk'.locate last p = disk.locate last p := by
  rw [locate, locate, search, search, follow_congr (h.entry?_eq hnodup), h.working]

theorem Relists.entryAt_eq (h : Relists disk' disk)
    (hnodup : (disk.entries.map Prod.fst).Nodup) : disk'.entryAt = disk.entryAt := by
  funext place
  rw [entryAt, entryAt, h.entry?_eq hnodup]

theorem Relists.stat_eq (h : Relists disk' disk) (hnodup : (disk.entries.map Prod.fst).Nodup)
    (p : Path) : disk'.stat p = disk.stat p := by
  rw [stat, stat, h.locate_eq hnodup, h.entryAt_eq hnodup]

theorem Relists.linkStat_eq (h : Relists disk' disk)
    (hnodup : (disk.entries.map Prod.fst).Nodup) (p : Path) :
    disk'.linkStat p = disk.linkStat p := by
  rw [linkStat, linkStat, h.locate_eq hnodup, h.entryAt_eq hnodup]

/-- **The same can be read.** -/
theorem Relists.read_eq (h : Relists disk' disk) (hnodup : (disk.entries.map Prod.fst).Nodup)
    (p : Path) : disk'.read p = disk.read p := by
  rw [read, read, h.stat_eq hnodup]

theorem isOpen_congr (h : disk'.entry? = disk.entry?) : disk'.isOpen = disk.isOpen := by
  funext base names
  rw [Bool.eq_iff_iff, isOpen_iff, isOpen_iff, h]

theorem Relists.visitsBelow_perm (h : Relists disk' disk)
    (hnodup : (disk.entries.map Prod.fst).Nodup) (p : Path) (base : Location) :
    (disk'.visitsBelow p base).Perm (disk.visitsBelow p base) := by
  rw [visitsBelow, isOpen_congr (h.entry?_eq hnodup)]
  exact (h.perm.filterMap _).filterMap _

/-- **The same is come to**, in another order. -/
theorem Relists.exists_walk (h : Relists disk' disk)
    (hnodup : (disk.entries.map Prod.fst).Nodup) {w : Walk} (hwalk : disk.walk p = .ok w) :
    ∃ w', disk'.walk p = .ok w' ∧ w'.visits.Perm w.visits ∧ w'.fault? = w.fault? := by
  obtain ⟨stands, base, entry, hstands, hbase, hentry, rfl⟩ := walk_eq_ok.1 hwalk
  rw [← h.linkStat_eq hnodup] at hstands
  rw [← h.locate_eq hnodup] at hbase
  rw [← h.entry?_eq hnodup] at hentry
  refine ⟨_, walk_eq_ok.2 ⟨stands, base, entry, hstands, hbase, hentry, rfl⟩, .cons _ ?_, rfl⟩
  split
  · exact h.visitsBelow_perm hnodup p base
  · exact .refl _

/-! ## A walk within another one -/

theorem descend_append (p : Path) (names more : Location) :
    descend p (names ++ more) = descend (descend p names) more :=
  List.foldl_append

theorem descend_concat (p : Path) (names : Location) (name : Bytes) :
    descend p (names ++ [name]) = (descend p names).child name := by
  rw [descend_append]
  rfl

/-- Going down from a path adds names to its bytes, with a separator before each, but for the one
that the path may end in. -/
theorem exists_bytes_descend (hp : p.bytes ≠ []) :
    ∃ front, (p.bytes = front ∨ p.bytes = front ++ [separator]) ∧
      ∀ names : Location, names ≠ [] → (∀ n ∈ names, n ≠ [] ∧ separator ∉ n) →
        (descend p names).bytes = front ++ separator :: joinNames names := by
  obtain ⟨front, hfront, hchild⟩ : ∃ front, (p.bytes = front ∨ p.bytes = front ++ [separator]) ∧
      ∀ name, (p.child name).bytes = front ++ separator :: name := by
    by_cases hlast : p.bytes.getLast? = some separator
    · obtain ⟨front, hbytes⟩ := List.getLast?_eq_some_iff.1 hlast
      refine ⟨front, .inr hbytes, fun name => ?_⟩
      rw [Path.child, if_pos (.inr hlast), hbytes, List.append_assoc]
      rfl
    · refine ⟨p.bytes, .inl rfl, fun name => ?_⟩
      rw [Path.child, if_neg (by simp [hp, hlast])]
  refine ⟨front, hfront, fun names hne hnames => ?_⟩
  induction names using List.reverseRecOn with
  | nil => exact absurd rfl hne
  | append_singleton names name ih =>
    rw [descend_concat]
    rcases List.eq_nil_or_concat' names with rfl | ⟨up, other, rfl⟩
    · rw [List.nil_append, joinNames_singleton]
      exact hchild name
    · -- What has been written ends in a name, so a separator is put before the next one.
      have hbytes := ih (by simp) fun n hn => hnames n (List.mem_append_left _ hn)
      obtain ⟨hnil, hsep⟩ := hnames other (by simp)
      obtain ⟨start, b, rfl⟩ := (List.eq_nil_or_concat' other).resolve_left hnil
      have hb : b ≠ separator := fun hb => hsep (by simp [hb])
      have hlast : ¬ ((descend p (up ++ [start ++ [b]])).bytes = [] ∨
          (descend p (up ++ [start ++ [b]])).bytes.getLast? = some separator) := by
        rw [hbytes, joinNames_append_last, ← List.cons_append, ← List.append_assoc,
          List.getLast?_concat]
        simp [hb]
      have hjoin : joinNames (up ++ [start ++ [b]] ++ [name]) =
          joinNames (up ++ [start ++ [b]]) ++ separator :: name := by
        rw [joinNames_append (by simp) (by simp), joinNames_singleton]
      rw [Path.child, if_neg hlast, hbytes, hjoin, List.append_assoc, List.cons_append]

/-- Going down from a path adds names to its own, in place of a blank one at their end. -/
theorem exists_splitNames_descend (hp : p.bytes ≠ []) :
    ∃ front, (splitNames p.bytes = front ∨ splitNames p.bytes = front ++ [[]]) ∧
      ∀ names : Location, names ≠ [] → (∀ n ∈ names, IsName n) →
        splitNames (descend p names).bytes = front ++ names := by
  obtain ⟨front, hfront, hbytes⟩ := exists_bytes_descend hp
  refine ⟨splitNames front, hfront.imp (congrArg splitNames) fun hblank => ?_,
    fun names hne hnames => ?_⟩
  · rw [hblank, splitNames_append_separator]
    rfl
  · rw [hbytes names hne fun n hn => ⟨(hnames n hn).ne_nil, (hnames n hn).separator_notMem⟩,
      splitNames_append_separator,
      splitNames_joinNames hne fun n hn => (hnames n hn).separator_notMem]

theorem isPrefix_descend (p : Path) (names : Location) : p.bytes <+: (descend p names).bytes := by
  induction names using List.reverseRecOn with
  | nil => exact List.prefix_rfl
  | append_singleton names name ih =>
    rw [descend_concat, Path.child]
    split <;> exact ih.trans (List.prefix_append _ _)

theorem isAbsolute_descend (hp : p.bytes ≠ []) (names : Location) :
    (descend p names).isAbsolute = p.isAbsolute := by
  obtain ⟨b, bs, hbytes⟩ := List.exists_cons_of_ne_nil hp
  obtain ⟨more, hmore⟩ := isPrefix_descend p names
  rw [Path.isAbsolute, Path.isAbsolute, ← hmore, hbytes]
  rfl

/-- Names below an open directory can be walked, up to what stands there. -/
theorem walkNames_of_isOpen {base names : Location} (hne : names ≠ [])
    (hopen : disk.isOpen base names.dropLast = true) (hnames : ∀ n ∈ names, IsName n)
    (hsome : (disk.entry? (base ++ names)).isSome) :
    disk.walkNames ⟨false, false⟩ base names = .ok (.arrived (base ++ names)) := by
  obtain ⟨up, name, rfl⟩ := (List.eq_nil_or_concat' names).resolve_left hne
  rw [List.dropLast_concat, isOpen_iff] at hopen
  have hup : disk.walkNames ⟨true, false⟩ base up = .ok (.arrived (base ++ up)) := by
    refine (walkNames_eq_ok_iff (fun n hn => hnames n (List.mem_append_left _ hn)) ?_).2
      ⟨rfl, fun above habove _ => hopen above habove, fun _ => .inr ?_⟩
    · intro above habove target
      simp [hopen above habove]
    · rw [hopen up List.prefix_rfl]
      rfl
  have hname := hnames name (by simp)
  rw [walkNames_append (by simp), hup]
  dsimp only
  rw [walkNames, if_neg hname.ne_nil, if_neg (by simp [hopen up List.prefix_rfl]),
    if_neg hname.ne_dot, if_neg hname.ne_dotDot, if_neg (Nat.not_lt.2 hname.length_le),
    List.append_assoc]
  obtain ⟨entry, hentry⟩ := Option.isSome_iff_exists.1 hsome
  simp only [hentry]
  cases entry with
  | link target => simp
  | dir => rfl
  | closed fault => rfl
  | file content => rfl
  | sealed fault => rfl

/-- Where a path leads that goes down from an open directory by proper names. -/
theorem locate_descend {base names place : Location} (hne : names ≠ [])
    (hopen : disk.isOpen base names.dropLast = true) (hnames : ∀ n ∈ names, IsName n)
    (hsome : (disk.entry? (base ++ names)).isSome)
    (hp : disk.locate ⟨true, false⟩ p = .ok base)
    (hq : disk.locate ⟨false, false⟩ (descend p names) = .ok place) : place = base ++ names := by
  obtain ⟨-, -, hnil, hp⟩ := locate_eq_ok.1 hp
  obtain ⟨-, -, -, hq⟩ := locate_eq_ok.1 hq
  obtain ⟨front, hfront, hsplit⟩ := exists_splitNames_descend hnil
  have hbase : disk.follow ⟨true, false⟩ (maxLinks + 1)
      (if p.isAbsolute then [] else disk.working) front = .ok base := by
    rcases hfront with hfront | hfront
    · rwa [← hfront]
    · rw [hfront] at hp
      exact follow_of_blank hp
  rw [isAbsolute_descend hnil, hsplit names hne hnames,
    follow_append hne hbase (walkNames_of_isOpen hne hopen hnames hsome)] at hq
  cases hq
  rfl

/-- **A walk that starts within another one**, at an entry that is no link, comes to nothing that
the other one does not come to. -/
theorem walk_subset (hnamed : disk.IsNamed) {w w' : Walk} (hwalk : disk.walk p = .ok w)
    (hq : ∃ v ∈ w.visits, v.path = q) (hlink : ∀ target, disk.linkStat q ≠ .ok (.link target))
    (hwalk' : disk.walk q = .ok w') : w'.visits ⊆ w.visits := by
  obtain ⟨v, hv, rfl⟩ := hq
  obtain ⟨stands, base, entry, -, hbase, hentry, rfl⟩ := walk_eq_ok.1 hwalk
  rcases mem_visits_enter.1 hv with rfl | ⟨rfl, hbelow⟩
  · rw [hwalk] at hwalk'
    cases hwalk'
    exact List.Subset.refl _
  obtain ⟨names, found, hne, hmem, hopen, hshort, rfl⟩ := mem_visitsBelow_iff.1 hbelow
  have hnames : ∀ n ∈ names, IsName n := fun n hn =>
    hnamed.isName _ hmem n (List.mem_append_right _ hn)
  have hfound := entry?_of_mem hnamed.nodup (by simp [hne]) hmem
  obtain ⟨stands', base', entry', hstands', hbase', hentry', rfl⟩ := walk_eq_ok.1 hwalk'
  -- The walk within starts at the very entry that the other one came to, and goes on there.
  obtain ⟨place, hplace, hstands'⟩ := bind_eq_ok.1 hstands'
  obtain rfl := locate_descend hne hopen hnames (by rw [hfound]; rfl) hbase hplace
  obtain rfl : base' = base ++ names := by
    rcases disk.locate_unfollowed (descend p names) with hsame | ⟨other, hother, target, htarget⟩
    · rw [← hsame, hplace] at hbase'
      exact (Except.ok.inj hbase').symm
    · refine absurd ?_ (hlink target)
      rw [linkStat, hother]
      exact entryAt_eq_ok.2 htarget
  rw [entryAt_eq_ok, hfound, Option.some.injEq] at hstands'
  rw [hfound, Option.some.injEq] at hentry'
  subst hstands' hentry'
  intro x hx
  rcases mem_visits_enter.1 hx with rfl | ⟨rfl, hbelow'⟩
  · exact hv
  obtain ⟨more, other, hmore, hmem', hopen', hshort', rfl⟩ := mem_visitsBelow_iff.1 hbelow'
  refine mem_visits_enter.2 (.inr ⟨rfl, mem_visitsBelow_iff.2
    ⟨names ++ more, other, by simp [hmore], ?_, ?_, ?_, ?_⟩⟩)
  · rwa [← List.append_assoc]
  · rw [List.dropLast_append_of_ne_nil hmore]
    exact isOpen_append hne hopen hopen'
  · rwa [List.dropLast_append_of_ne_nil hmore, descend_append]
  · rw [descend_append]

end Disk

end CertRotation
