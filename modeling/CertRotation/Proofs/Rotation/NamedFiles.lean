import CertRotation.Proofs.Disk.Directory
import CertRotation.Proofs.Watch.Loading
import CertRotation.Rotation.Directory

/-!
# The files of a certificate directory

A certificate directory keeps files under their bare names, so files of one name in different
directories meet under one key.  A scan comes by all files below the directory, however deep they
lie and whether or not subfolders are watched, and each file that it comes by replaces what was
there before.

* `CertDirectory.StandsFor` — the files below the directory that count for a name;
* `CertDirectory.get?_eq_some_iff` — what the store holds for a name is the content of the last file
  listed that counts for it; so the directory's own file wins exactly if that content is its own;
* `CertDirectory.nested_file_wins` — a directory where a file in a subfolder wins.
-/

set_option autoImplicit false

namespace CertRotation

namespace Loader

/-- The loader keeps files under their names and knows staged copies by the usual mark. -/
structure GoesByName (l : Loader) : Prop where
  strategy : l.resolver.strategy = .nameWithExtension
  marker : l.marker = some Pattern.finalTilde

variable {disk : Disk} {l : Loader} {root up : Location} {n : Bytes}

theorem GoesByName.key? (hl : l.GoesByName) (hn : ∀ m ∈ root ++ (up ++ [n]), IsName m) :
    l.resolver.key? (filePath root (up ++ [n])) = Utf8.decode? n := by
  rw [← List.append_assoc] at hn
  rw [KeyResolver.key?, hl.strategy, filePath, ← List.append_assoc]
  show KeyResolver.fileName? _ = _
  rw [KeyResolver.fileName?, Disk.fileName?_pathOf hn]
  rfl

/-- A file without a mark supplies its own content under its name. -/
theorem GoesByName.supply?_unmarked (hl : l.GoesByName) (hn : ∀ m ∈ root ++ (up ++ [n]), IsName m)
    (hmark : ¬ (filePath root (up ++ [n])).IsMarked) {key : Key} {content : Bytes} :
    l.supply? disk (filePath root (up ++ [n])) = some (key, content) ↔
      Utf8.decode? n = some key ∧ disk.content? (filePath root (up ++ [n])) = some content := by
  rw [supply?, hl.key? hn]
  cases Utf8.decode? n with
  | none => simp
  | some name =>
    rw [Option.bind_some, staged?_eq_none hl.marker hmark, Option.getD_none]
    simp [and_comm]

/-- A file with a mark supplies the content of the file without it, under the name without it. -/
theorem GoesByName.supply?_marked (hl : l.GoesByName)
    (hn : ∀ m ∈ root ++ (up ++ [n ++ [tilde]]), IsName m)
    (htext : (Utf8.decode? (filePath root (up ++ [n ++ [tilde]])).bytes).isSome) {key : Key}
    {content : Bytes} :
    l.supply? disk (filePath root (up ++ [n ++ [tilde]])) = some (key, content) ↔
      Utf8.decode? n = some key ∧ disk.content? (filePath root (up ++ [n])) = some content := by
  rw [supply?, hl.key? hn, decode?_tilde, filePath_concat_append]
  rw [filePath_concat_append, decode?_tilde, Option.isSome_map] at htext
  cases Utf8.decode? n with
  | none => simp
  | some name =>
    rw [Option.map_some, Option.bind_some, staged?_tilde hl.marker htext, Option.getD_some]
    simp [and_comm]

/-- What a loader that goes by names loads of what is listed below the directory at `p`. -/
def supplyBelow (disk : Disk) (l : Loader) (p : Path) (e : Location × Entry) :
    Option (Key × Bytes) :=
  if (Disk.descend p e.1.dropLast).bytes.length ≤ Disk.maxPath ∧ e.2.isDir = false then
    l.supply? disk (Disk.descend p e.1)
  else none

theorem supplies_visitsBelow (tree : disk.IsTree) (p : Path) (base : Location) :
    l.supplies disk (⟨p, true⟩ :: disk.visitsBelow p base) =
      (disk.below base).filterMap (l.supplyBelow disk p) := by
  have hopen : ∀ e ∈ disk.below base, disk.isOpen base e.1.dropLast = true := by
    intro e he
    obtain ⟨hne, hmem⟩ := Disk.mem_below.1 he
    exact tree.isOpen_dropLast hne ((Disk.entry?_isSome_iff (by simp [hne])).2 ⟨_, hmem⟩)
  rw [supplies, List.filter_cons, if_neg (by simp), Disk.visitsBelow]
  generalize disk.below base = listed at hopen
  induction listed with
  | nil => rfl
  | cons e rest ih =>
    obtain ⟨names, entry⟩ := e
    obtain ⟨hfirst, hrest⟩ := List.forall_mem_cons.1 hopen
    rw [List.filterMap_cons, List.filterMap_cons, supplyBelow, ← ih hrest]
    by_cases hle : (Disk.descend p names.dropLast).bytes.length ≤ Disk.maxPath
    · cases hdir : entry.isDir with
      | true => simp [hfirst, hle, hdir]
      | false => simp [hfirst, hle, hdir, List.filterMap_cons]
    · simp [hle]

end Loader

namespace CertDirectory

/-- A name that a file of the directory can have and that carries no mark. -/
structure PlainName (name : Key) : Prop where
  isName : IsName (Utf8.encode name)
  mark : name.getLast? ≠ some '~'

/-- The entry, listed by its names below the directory at `root`, counts for `name` with `content`:
it is called so, or it is a staged copy of a file called so; and `content` is what there is to load
of the file called so in the same directory. -/
def StandsFor (disk : Disk) (root : Location) (name : Key) (e : Location × Entry)
    (content : Bytes) : Prop :=
  e.2.isDir = false ∧ ∃ up,
    (e.1 = up ++ [Utf8.encode name] ∨ e.1 = up ++ [Utf8.encode name ++ [tilde]] ∧
      (Utf8.decode? (filePath root e.1).bytes).isSome) ∧
    disk.content? (filePath root (up ++ [Utf8.encode name])) = some content

variable {disk : Disk} {l : Loader} {root names : Location} {name : Key} {content : Bytes}

/-- A plain name does not end in the byte of the mark. -/
theorem PlainName.encode_ne (hname : PlainName name) (n : Bytes) :
    Utf8.encode name ≠ n ++ [tilde] := by
  intro h
  have hread := decode?_tilde n
  rw [← h, Utf8.decode?_encode] at hread
  obtain ⟨front, -, hfront⟩ := Option.map_eq_some_iff.1 hread.symm
  exact hname.mark (by rw [← hfront, List.getLast?_concat])

/-- Which paths supply the content for a name. -/
theorem supply?_eq_some_iff (hl : l.GoesByName) (hname : PlainName name)
    (hn : ∀ m ∈ root ++ names, IsName m) (hne : names ≠ []) :
    l.supply? disk (filePath root names) = some (name, content) ↔
      ∃ up, (names = up ++ [Utf8.encode name] ∨ names = up ++ [Utf8.encode name ++ [tilde]] ∧
          (Utf8.decode? (filePath root names).bytes).isSome) ∧
        disk.content? (filePath root (up ++ [Utf8.encode name])) = some content := by
  obtain ⟨up, n, rfl⟩ := (List.eq_nil_or_concat' names).resolve_left hne
  by_cases hmark : (filePath root (up ++ [n])).IsMarked
  · obtain ⟨m, rfl⟩ : ∃ m, n = m ++ [tilde] := by
      obtain ⟨front, hfront, -⟩ := Path.isMarked_iff.1 hmark
      obtain ⟨m, b, rfl⟩ := (List.eq_nil_or_concat' n).resolve_left (hn n (by simp)).ne_nil
      rw [filePath_concat, Path.mk.injEq, ← List.cons_append, ← List.append_assoc] at hfront
      obtain ⟨-, hb⟩ := List.append_inj' hfront rfl
      exact ⟨m, by rw [hb]⟩
    rw [hl.supply?_marked hn hmark.1, Utf8.decode?_eq_some_iff]
    constructor
    · rintro ⟨rfl, hcontent⟩
      exact ⟨up, .inr ⟨rfl, hmark.1⟩, hcontent⟩
    · rintro ⟨up', hnames | ⟨hnames, -⟩, hcontent⟩
      · obtain ⟨-, h⟩ := List.append_inj' hnames rfl
        exact absurd (List.singleton_inj.1 h).symm (hname.encode_ne m)
      · obtain ⟨rfl, h⟩ := List.append_inj' hnames rfl
        obtain rfl := List.append_cancel_right (List.singleton_inj.1 h)
        exact ⟨rfl, hcontent⟩
  · rw [hl.supply?_unmarked hn hmark, Utf8.decode?_eq_some_iff]
    constructor
    · rintro ⟨rfl, hcontent⟩
      exact ⟨up, .inl rfl, hcontent⟩
    · rintro ⟨up', hnames | ⟨hnames, htext⟩, hcontent⟩
      · obtain ⟨rfl, h⟩ := List.append_inj' hnames rfl
        obtain rfl := List.singleton_inj.1 h
        exact ⟨rfl, hcontent⟩
      · refine absurd ⟨htext, ?_⟩ hmark
        rw [hnames, filePath_concat_append, List.getLast?_concat]

theorem length_le_of_content? {p : Path} (h : disk.content? p = some content) :
    p.bytes.length ≤ Disk.maxPath := by
  by_contra hlong
  obtain ⟨fault, hfault⟩ : ∃ fault, disk.stat p = .error fault := by
    rw [Disk.stat, Disk.locate, if_pos (Nat.lt_of_not_le hlong)]
    split <;> exact ⟨_, rfl⟩
  have hread := (Disk.content?_eq_some.1 h).1
  rw [Disk.read, hfault] at hread
  cases hread

/-- What is loaded of a listed entry is what it counts with. -/
theorem supplyBelow_eq_some_iff (hl : l.GoesByName) (hname : PlainName name)
    (hroot : ∀ m ∈ root, IsName m) {e : Location × Entry} (hn : ∀ m ∈ e.1, IsName m)
    (hne : e.1 ≠ []) :
    l.supplyBelow disk (Disk.pathOf root) e = some (name, content) ↔
      StandsFor disk root name e content := by
  have hdrop : ∀ m ∈ e.1.dropLast, IsName m := fun m hm => hn m (List.dropLast_subset _ hm)
  have hall : ∀ m ∈ root ++ e.1, IsName m := fun m hm =>
    (List.mem_append.1 hm).elim (hroot m) (hn m)
  rw [Loader.supplyBelow, Option.ite_none_right_eq_some, Disk.descend_pathOf hroot hdrop,
    Disk.descend_pathOf hroot hn]
  have hsupply : l.supply? disk (filePath root e.1) = some (name, content) ↔ _ :=
    supply?_eq_some_iff hl hname hall hne
  rw [filePath] at hsupply
  rw [hsupply, StandsFor, filePath]
  constructor
  · rintro ⟨⟨-, hfile⟩, hstands⟩
    exact ⟨hfile, hstands⟩
  · rintro ⟨hfile, up, hnames, hcontent⟩
    refine ⟨⟨?_, hfile⟩, up, hnames, hcontent⟩
    have hup : e.1.dropLast = up := by
      rcases hnames with h | ⟨h, -⟩ <;> rw [h, List.dropLast_concat]
    have hle := Disk.length_pathOf_le (root ++ up) [Utf8.encode name]
    rw [hup]
    rw [List.append_assoc] at hle
    exact hle.trans (length_le_of_content? hcontent)

/-- Where there is content to load in a directory, something stands that is no directory. -/
theorem exists_entry_of_content? (h : StandingDir disk root) {n : Bytes} (hn : IsName n)
    (hcontent : disk.content? (filePath root [n]) = some content) :
    ∃ entry, disk.entry? (root ++ [n]) = some entry ∧ entry.isDir = false := by
  by_cases hlink : ∃ target, disk.entry? (root ++ [n]) = some (.link target)
  · obtain ⟨target, hentry⟩ := hlink
    exact ⟨_, hentry, rfl⟩
  · have hread := (Disk.content?_eq_some.1 hcontent).1
    rw [filePath, Disk.read_pathOf (h.isName_concat hn)
      (h.linkFree_concat (not_exists.1 hlink))] at hread
    exact ⟨_, hread.2.2, rfl⟩

/-- Where the directory has content of its own for a name, some file counts for the name. -/
theorem exists_standsFor (h : StandingDir disk root) (hname : PlainName name)
    (hcontent : disk.content? (filePath root [Utf8.encode name]) = some content) :
    ∃ e ∈ disk.below root, ∃ c, StandsFor disk root name e c := by
  obtain ⟨entry, hentry, hdir⟩ := exists_entry_of_content? h hname.isName hcontent
  have hbelow := Disk.mem_below.2 ⟨by simp, Disk.mem_entries (by simp) hentry⟩
  exact ⟨_, hbelow, content, hdir, [], .inl rfl, hcontent⟩

/-- What is loaded under a name that some file counts for. -/
theorem isSome_lookup_supplyBelow (hl : l.GoesByName) (hname : PlainName name)
    (hroot : ∀ m ∈ root, IsName m) (hnames : ∀ e ∈ disk.below root, ∀ m ∈ e.1, IsName m)
    (hsome : ∃ e ∈ disk.below root, ∃ c, StandsFor disk root name e c) :
    (((disk.below root).filterMap
      (l.supplyBelow disk (Disk.pathOf root))).reverse.lookup name).isSome := by
  obtain ⟨e, he, c, hc⟩ := hsome
  have hne := (Disk.mem_below.1 he).1
  have hsupply := (supplyBelow_eq_some_iff hl hname hroot (hnames e he) hne).2 hc
  have hmem := List.mem_filterMap.2 ⟨e, he, hsupply⟩
  exact List.lookup_isSome_iff.2 ⟨_, List.mem_reverse.2 hmem, beq_self_eq_true name⟩

/-- The store after a refresh or a start holds, under a name that some file counts for, the content
of the last file listed that counts for it. -/
theorem get?_insertAll_supplies (tree : disk.IsTree) (hl : l.GoesByName) (hname : PlainName name)
    (hroot : ∀ m ∈ root, IsName m) (hnames : ∀ e ∈ disk.below root, ∀ m ∈ e.1, IsName m)
    (hsome : ∃ e ∈ disk.below root, ∃ c, StandsFor disk root name e c) (store : Store) :
    (store.insertAll (l.supplies disk
        (⟨Disk.pathOf root, true⟩ :: disk.visitsBelow (Disk.pathOf root) root))).get? name =
        some content ↔
      ∃ front e rest, disk.below root = front ++ e :: rest ∧ StandsFor disk root name e content ∧
        ∀ later ∈ rest, ∀ c, ¬ StandsFor disk root name later c := by
  have hstands : ∀ e ∈ disk.below root, ∀ c,
      l.supplyBelow disk (Disk.pathOf root) e = some (name, c) ↔ StandsFor disk root name e c := by
    intro e he c
    exact supplyBelow_eq_some_iff hl hname hroot (hnames e he) (Disk.mem_below.1 he).1
  rw [Store.get?_insertAll, Loader.supplies_visitsBelow tree, Option.or_eq_left_of_isSome
    (isSome_lookup_supplyBelow hl hname hroot hnames hsome), lookup_reverse_filterMap_eq_some_iff]
  constructor
  · rintro ⟨front, e, rest, hbelow, hat, hafter⟩
    refine ⟨front, e, rest, hbelow, (hstands e (by simp [hbelow]) content).1 hat,
      fun later hlater c hc => hafter later hlater c ?_⟩
    exact (hstands later (by simp [hbelow, hlater]) c).2 hc
  · rintro ⟨front, e, rest, hbelow, hat, hafter⟩
    refine ⟨front, e, rest, hbelow, (hstands e (by simp [hbelow]) content).2 hat,
      fun later hlater c hc => hafter later hlater c ?_⟩
    exact (hstands later (by simp [hbelow, hlater]) c).1 hc

/-- Under a name that some file counts for, the store after a refresh or a start holds something. -/
theorem exists_get?_insertAll_supplies (tree : disk.IsTree) (hl : l.GoesByName)
    (hname : PlainName name) (hroot : ∀ m ∈ root, IsName m)
    (hnames : ∀ e ∈ disk.below root, ∀ m ∈ e.1, IsName m)
    (hsome : ∃ e ∈ disk.below root, ∃ c, StandsFor disk root name e c) (store : Store) :
    ∃ content, (store.insertAll (l.supplies disk
      (⟨Disk.pathOf root, true⟩ :: disk.visitsBelow (Disk.pathOf root) root))).get? name =
        some content := by
  have hfound := isSome_lookup_supplyBelow hl hname hroot hnames hsome
  rw [Store.get?_insertAll, Loader.supplies_visitsBelow tree, Option.or_eq_left_of_isSome hfound]
  exact Option.isSome_iff_exists.1 hfound

theorem of_new {s : RotationSettings} {d : CertDirectory} {p : Path}
    (hdir : disk.canonical s.certDir = .ok p) (h : CertDirectory.new disk s = .ok d) :
    d.loader.roots = [p] ∧ d.loader.GoesByName ∧ d.isWatching = false := by
  rw [CertDirectory.new] at h
  split at h
  · rename_i loader hloader
    cases h
    obtain ⟨hroots, hstrategy, hmarker, -, -, hidle⟩ := Loader.of_new rfl rfl hdir hloader
    exact ⟨hroots, ⟨hstrategy, hmarker⟩, hidle⟩
  · cases h

/-- A refresh, or a start from rest, leaves the store that a scan leaves. -/
theorem store_of_refresh_or_start {d d' : CertDirectory} {runtime : Bool}
    (h : d.refresh disk = (.ok (), d') ∨
      d.isWatching = false ∧ d.start disk runtime = (.ok (), d')) :
    ∃ scanned, d.loader.scan disk = (.ok (), scanned) ∧ d'.loader.store = scanned.store := by
  rcases h with h | ⟨hidle, h⟩
  · rw [refresh] at h
    cases hscan : d.loader.scan disk with
    | mk answer scanned =>
      rw [hscan] at h
      cases answer with
      | error e => cases h
      | ok =>
        cases h
        exact ⟨scanned, rfl, rfl⟩
  · rw [start] at h
    cases hstart : d.loader.startWatching disk runtime with
    | mk answer loader =>
      rw [hstart] at h
      cases answer with
      | error e => cases h
      | ok =>
        cases h
        obtain ⟨-, scanned, w, hscan, rfl⟩ := Loader.exists_of_startWatching hidle hstart
        exact ⟨scanned, hscan, rfl⟩

/-- **The last file listed decides.**  Where the directory has a file of its own for a name, a
refresh or a start leaves the store with the content of the file that is listed last among those
that count for the name, wherever below the directory they lie; the directory's own file wins
exactly if that content is its own. -/
theorem get?_eq_some_iff {s : RotationSettings} {before : Disk} {new d d' : CertDirectory}
    {store : Store} {watcher : Option PathWatcher} {runtime : Bool} {own : Bytes}
    (hdir : before.canonical s.certDir = .ok (Disk.pathOf root))
    (hnew : CertDirectory.new before s = .ok new)
    (hd : d = { new with loader := { new.loader with store := store, watcher := watcher } })
    (tree : disk.IsTree) (hnames : ∀ e ∈ disk.entries, root <+: e.1 → ∀ n ∈ e.1, IsName n)
    (hname : PlainName name)
    (hfile : disk.entry? (root ++ [Utf8.encode name]) = some (.file own)) (hown : own ≠ [])
    (hread : disk.read (filePath root [Utf8.encode name]) = .ok own)
    (hrun : d.refresh disk = (.ok (), d') ∨
      d.isWatching = false ∧ d.start disk runtime = (.ok (), d')) (content : Bytes) :
    d'.loader.store.get? name = some content ↔
      ∃ front e rest, disk.below root = front ++ e :: rest ∧ StandsFor disk root name e content ∧
        ∀ later ∈ rest, ∀ c, ¬ StandsFor disk root name later c := by
  obtain ⟨hroots, hl, -⟩ := of_new hdir hnew
  obtain ⟨scanned, hscan, hstore⟩ := store_of_refresh_or_start hrun
  have hcontent := Disk.content?_eq_some.2 ⟨hread, hown⟩
  have hmem := Disk.mem_entries (by simp) hfile
  have hroot : ∀ n ∈ root, IsName n := fun n hn =>
    hnames _ hmem (List.prefix_append _ _) n (List.mem_append_left _ hn)
  obtain ⟨-, hrootDir⟩ := Disk.isReachable_concat.1 (tree _ (by rw [hfile]; rfl))
  have hstanding : StandingDir disk root := ⟨tree, hroot, hrootDir,
    (Disk.length_pathOf_le root _).trans (length_le_of_content? hcontent)⟩
  have hroots' : d.loader.roots = [Disk.pathOf root] := by rw [hd]; exact hroots
  have hl' : d.loader.GoesByName := by rw [hd]; exact ⟨hl.strategy, hl.marker⟩
  rw [Loader.scan_eq hroots', hstanding.walk_eq] at hscan
  cases hscan
  rw [hstore]
  refine get?_insertAll_supplies tree hl' hname hroot (fun e he n hn => ?_)
    (exists_standsFor hstanding hname hcontent) _
  exact hnames _ (Disk.mem_below.1 he).2 (List.prefix_append _ _) n (List.mem_append_right _ hn)

/-- A directory with a file of its own and one of the same name in a subfolder that is listed
before. -/
def laterCopy : Disk :=
  ⟨[([[114]], .dir), ([[114], [111]], .dir), ([[114], [111], Utf8.ofString "tls.crt"], .file [50]),
    ([[114], Utf8.ofString "tls.crt"], .file [49])], []⟩

/-- The directory's own file is listed last, and wins. -/
theorem get?_laterCopy : ∃ d d' : CertDirectory,
    CertDirectory.new laterCopy (.inDirectory (filePath [[114]] [])) = .ok d ∧
      d.refresh laterCopy = (.ok (), d') ∧ d'.loader.store.get? d.certFile = some [49] := by
  obtain ⟨d, hnew⟩ :
      ∃ d, CertDirectory.new laterCopy (.inDirectory (filePath [[114]] [])) = .ok d := ⟨_, rfl⟩
  obtain ⟨d', hrun⟩ : ∃ d', d.refresh laterCopy = (.ok (), d') := by
    cases hnew
    exact ⟨_, rfl⟩
  refine ⟨d, d', hnew, hrun, ?_⟩
  have hname : PlainName "tls.crt".toList := ⟨by decide, by decide⟩
  have hrun' : d.refresh laterCopy = (.ok (), d') ∨
      d.isWatching = false ∧ d.start laterCopy true = (.ok (), d') := .inl hrun
  have hlast := get?_eq_some_iff rfl hnew rfl (by decide) (by decide) hname rfl (by decide) rfl
    hrun' [49]
  have hcert : d.certFile = "tls.crt".toList := by
    cases hnew
    rfl
  have hbelow : laterCopy.below [[114]] =
      [([[111]], .dir), ([[111], Utf8.ofString "tls.crt"], .file [50])] ++
        ([Utf8.ofString "tls.crt"], .file [49]) :: [] := rfl
  rw [hcert]
  exact hlast.2 ⟨_, _, [], hbelow, ⟨rfl, [], .inl rfl, rfl⟩, by simp⟩

/-- A directory with a file of its own and one of the same name in a subfolder that is listed
later. -/
def nestedCopy : Disk :=
  ⟨[([[114]], .dir), ([[114], Utf8.ofString "tls.crt"], .file [49]), ([[114], [111]], .dir),
    ([[114], [111], Utf8.ofString "tls.crt"], .file [50])], []⟩

/-- **A file in a subfolder may win** although subfolders are not watched. -/
theorem nested_file_wins : ∃ d d' : CertDirectory,
    CertDirectory.new nestedCopy (.inDirectory (filePath [[114]] [])) = .ok d ∧
      (RotationSettings.inDirectory (filePath [[114]] [])).subfolders = false ∧
      nestedCopy.read (filePath [[114]] [Utf8.encode d.certFile]) = .ok [49] ∧
      d.refresh nestedCopy = (.ok (), d') ∧
      d'.loader.store.get? d.certFile = some [50] := by
  exact ⟨_, _, rfl, rfl, rfl, rfl, rfl⟩

end CertDirectory

end CertRotation
