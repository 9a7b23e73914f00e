import Stormnetboot.Server.Hosts

/-!
# The file behind the host records

A reload reads the file again if it changed, and replaces the bootstrap layer by what is in it. It
returns a number of records, which it takes from the layer, from the file's list, or from nowhere;
that is the number the layer holds except where the list names a machine twice, or where the file
has gone and the layer is kept.
-/

namespace Stormnetboot.Server

open Stormnetboot.Common

/-- Why a file cannot be read. -/
inductive ReadError where
  | notFound
  | other (message : Text)
  deriving DecidableEq, Repr

/-- The backing file as a reload meets it: the time it was modified, if that can be told, and what
reading it gives. -/
structure BackingFile where
  modified : Option ℤ
  content : Except ReadError Text

/-- Why a reload fails. -/
inductive ReloadError where
  | unreadable (err : ReadError)
  | malformed (message : Text)
  deriving DecidableEq, Repr

/-- A host store with its file. A store without a path has nothing in its bootstrap layer. -/
structure BackedStore where
  path : Option Text
  mtime : Option ℤ
  layers : HostStore
  unbacked : path = none → layers.file = ∅

/-- What the JSON library makes of the file's text. -/
abbrev DecodeRecords := Text → Except Text (List HostRecord)

namespace BackedStore

/-- A store with no records and no file. -/
def empty : BackedStore where
  path := none
  mtime := none
  layers := .empty
  unbacked _ := rfl

/-- The file is the one that was loaded. -/
def Unchanged (file : BackingFile) (store : BackedStore) : Prop :=
  file.modified.isSome ∧ store.mtime = file.modified

/-- Whether the file is the one that was loaded is decided on its path and its time. -/
instance (file : BackingFile) (store : BackedStore) : Decidable (Unchanged file store) :=
  inferInstanceAs (Decidable (_ ∧ _))

/-- Replace the bootstrap layer by the records of the file. -/
def load (path : Text) (mtime : Option ℤ) (records : List HostRecord) (store : BackedStore) :
    BackedStore where
  path := some path
  mtime := mtime
  layers := store.layers.setFileRecords records
  unbacked h := nomatch h

/-- `HostStore::reload`: the number of records it returns, and the store it leaves. -/
def reload (decode : DecodeRecords) (file : BackingFile) (store : BackedStore) :
    Except ReloadError ℕ × BackedStore :=
  match store.path with
  | none => (.ok 0, store)
  | some path =>
    if Unchanged file store then (.ok (HashMap.len store.layers.file), store)
    else
      match file.content with
      | .error .notFound => (.ok 0, store)
      | .error err => (.error (.unreadable err), store)
      | .ok raw =>
        match decode raw with
        | .error message => (.error (.malformed message), store)
        | .ok list => (.ok list.length, store.load path file.modified list)

/-- `HostStore::from_file`: a failed load leaves the store empty. -/
def fromFile (decode : DecodeRecords) (path : Text) (file : BackingFile) : BackedStore :=
  (reload decode file { empty with path := some path, unbacked := fun _ => rfl }).2

/-! ## What a reload can do -/

/-- The exits of a reload. -/
inductive Reloads (decode : DecodeRecords) (file : BackingFile) (store : BackedStore) :
    Except ReloadError ℕ × BackedStore → Prop where
  | unbacked (hpath : store.path = none) : Reloads decode file store (.ok 0, store)
  | unchanged (hsame : Unchanged file store) :
    Reloads decode file store (.ok (HashMap.len store.layers.file), store)
  | absent (path : Text) (hpath : store.path = some path) (hchanged : ¬Unchanged file store)
    (hcontent : file.content = .error .notFound) : Reloads decode file store (.ok 0, store)
  | fails (err : ReloadError) : Reloads decode file store (.error err, store)
  | loads (path raw : Text) (list : List HostRecord) (hpath : store.path = some path)
    (hchanged : ¬Unchanged file store) (hcontent : file.content = .ok raw)
    (hdecode : decode raw = .ok list) :
    Reloads decode file store (.ok list.length, store.load path file.modified list)

/-- A reload reloads the file. -/
theorem reloads_reload (decode : DecodeRecords) (file : BackingFile) (store : BackedStore) :
    Reloads decode file store (store.reload decode file) := by
  unfold reload
  cases hpath : store.path with
  | none => exact .unbacked hpath
  | some path =>
    simp only
    split_ifs with hsame
    · exact .unchanged hsame
    · cases hcontent : file.content with
      | error err =>
        cases err with
        | notFound => exact .absent path hpath hsame hcontent
        | other message => exact .fails _
      | ok raw =>
        simp only
        cases hdecode : decode raw with
        | error message => exact .fails _
        | ok list => exact .loads path raw list hpath hsame hcontent hdecode

end BackedStore

/-- The layer holds as many records as the list names machines. -/
theorem HostStore.len_setFileRecords_eq_iff (records : List HostRecord) (store : HostStore) :
    HashMap.len (store.setFileRecords records).file = records.length ↔
      (records.map HostRecord.mac).Nodup := by
  have hcollect := HashMap.len_collect_eq_iff (records.map fun r => (r.mac, r))
  rw [List.length_map, List.map_map] at hcollect
  exact hcollect

/-! ## Whether it tells the truth -/

/-- A reload that fails changes nothing, one that succeeds returns the number of records the
bootstrap layer then holds, and none touches the cluster layer. -/
structure TellsTruth (decode : DecodeRecords) (file : BackingFile) (store : BackedStore) :
    Prop where
  atomic : ∀ err, (store.reload decode file).1 = .error err → (store.reload decode file).2 = store
  counts : ∀ n, (store.reload decode file).1 = .ok n →
    n = HashMap.len (store.reload decode file).2.layers.file
  cluster : (store.reload decode file).2.layers.kube = store.layers.kube ∧
    (store.reload decode file).2.layers.kubeSynced = store.layers.kubeSynced

/-- Where the file is looked at again it has not gone while there are records from it, and no
machine is in it twice. -/
structure CountsTruly (decode : DecodeRecords) (file : BackingFile) (store : BackedStore) :
    Prop where
  present : store.path.isSome → ¬store.Unchanged file → file.content = .error .notFound →
    store.layers.file = ∅
  distinct : store.path.isSome → ¬store.Unchanged file → ∀ raw list, file.content = .ok raw →
    decode raw = .ok list → (list.map HostRecord.mac).Nodup

/-- A reload that finds no file keeps what it has, and returns none. -/
theorem BackedStore.reload_absent (decode : DecodeRecords) {file : BackingFile}
    {store : BackedStore} (hpath : store.path.isSome) (hchanged : ¬store.Unchanged file)
    (hcontent : file.content = .error .notFound) : store.reload decode file = (.ok 0, store) := by
  obtain ⟨path, hpath⟩ := Option.isSome_iff_exists.mp hpath
  simp only [reload, hpath, if_neg hchanged, hcontent]

/-- A reload of a list returns the length of the list. -/
theorem BackedStore.reload_list {decode : DecodeRecords} {file : BackingFile}
    {store : BackedStore} {raw : Text} {list : List HostRecord} (hpath : store.path.isSome)
    (hchanged : ¬store.Unchanged file) (hcontent : file.content = .ok raw)
    (hdecode : decode raw = .ok list) :
    (store.reload decode file).1 = .ok list.length ∧
      (store.reload decode file).2.layers = store.layers.setFileRecords list := by
  obtain ⟨path, hpath⟩ := Option.isSome_iff_exists.mp hpath
  have hreload : store.reload decode file =
      (.ok list.length, store.load path file.modified list) := by
    simp only [reload, hpath, if_neg hchanged, hcontent, hdecode]
  rw [hreload]
  exact ⟨rfl, rfl⟩

/-- A layer is empty exactly when it has no entry. -/
theorem len_eq_zero_iff (layer : HashMap Mac HostRecord) : 0 = HashMap.len layer ↔ layer = ∅ := by
  rw [eq_comm, HashMap.len, Multiset.card_eq_zero]
  constructor
  · exact fun h => Finmap.ext h
  · exact fun h => h ▸ rfl

section Exits

variable {decode : DecodeRecords} {file : BackingFile} {store : BackedStore}

/-- A reload that fails changes nothing. -/
theorem reload_atomic {err : ReloadError} (h : (store.reload decode file).1 = .error err) :
    (store.reload decode file).2 = store := by
  have hexit := store.reloads_reload decode file
  generalize store.reload decode file = after at hexit h ⊢
  cases hexit with
  | fails err => rfl
  | _ => cases h

/-- None touches the cluster layer. -/
theorem reload_cluster : (store.reload decode file).2.layers.kube = store.layers.kube ∧
    (store.reload decode file).2.layers.kubeSynced = store.layers.kubeSynced := by
  have hexit := store.reloads_reload decode file
  generalize store.reload decode file = after at hexit ⊢
  cases hexit <;> exact ⟨rfl, rfl⟩

/-- Where the file counts truly, so does a reload. -/
theorem reload_counts (hcounts : CountsTruly decode file store) {n : ℕ}
    (h : (store.reload decode file).1 = .ok n) :
    n = HashMap.len (store.reload decode file).2.layers.file := by
  have hexit := store.reloads_reload decode file
  generalize store.reload decode file = after at hexit h ⊢
  cases hexit with
  | unbacked hpath =>
    cases h
    exact (len_eq_zero_iff _).mpr (store.unbacked hpath)
  | unchanged hsame =>
    cases h
    rfl
  | absent path hpath hchanged hcontent =>
    cases h
    exact (len_eq_zero_iff _).mpr (hcounts.present (hpath ▸ rfl) hchanged hcontent)
  | fails err => cases h
  | loads path raw list hpath hchanged hcontent hdecode =>
    cases h
    exact ((HostStore.len_setFileRecords_eq_iff ..).mpr
      (hcounts.distinct (hpath ▸ rfl) hchanged raw list hcontent hdecode)).symm

end Exits

/-- A reload tells the truth exactly where it counts truly; it is atomic in any case. -/
theorem tellsTruth_iff (decode : DecodeRecords) (file : BackingFile) (store : BackedStore) :
    TellsTruth decode file store ↔ CountsTruly decode file store := by
  constructor
  · intro h
    constructor
    · intro hpath hchanged hcontent
      have hreload := BackedStore.reload_absent decode hpath hchanged hcontent
      have hcount := h.counts 0 (by rw [hreload])
      rw [hreload] at hcount
      exact (len_eq_zero_iff _).mp hcount
    · intro hpath hchanged raw list hcontent hdecode
      obtain ⟨hresult, hlayers⟩ := BackedStore.reload_list hpath hchanged hcontent hdecode
      have hcount := h.counts _ hresult
      rw [hlayers] at hcount
      exact (HostStore.len_setFileRecords_eq_iff ..).mp hcount.symm
  · exact fun h => ⟨fun _ => reload_atomic, fun _ => reload_counts h, reload_cluster⟩

/-! ## A file that has gone -/

namespace Removed

/-- Where the file lies. -/
def path : Text :=
  "/var/lib/stormnetboot/hosts.json".toList

/-- A record of the bootstrap layer. -/
def record : HostRecord where
  mac := .ofOctets 0xaa 0xbb 0xcc 0xdd 0xee 1
  name := "node1".toList
  role := none
  stack := none
  portal := none
  extraCmdline := none
  online := true
  object := none

/-- The file with one record. -/
def raw : Text :=
  "[\x7b\"mac\":\"aa:bb:cc:dd:ee:01\",\"name\":\"node1\"\x7d]".toList

/-- The library, as far as this file is concerned. -/
def decode : DecodeRecords := fun text =>
  if text = raw then .ok [record] else .error "expected value".toList

/-- The store that has loaded it. -/
def store : BackedStore :=
  .fromFile decode path ⟨some 1, .ok raw⟩

/-- The file after it was removed. -/
def gone : BackingFile where
  modified := none
  content := .error .notFound

end Removed

/-- A reload after the file was removed returns none, and the record is still there. -/
theorem not_tellsTruth_removed : ¬TellsTruth Removed.decode Removed.gone Removed.store := by
  intro h
  have hreload : Removed.store.reload Removed.decode Removed.gone = (.ok 0, Removed.store) :=
    BackedStore.reload_absent _ rfl (by decide) rfl
  have hcount := h.counts 0 (by rw [hreload])
  have hlen : HashMap.len Removed.store.layers.file = 1 := by decide
  rw [hreload, hlen] at hcount
  cases hcount

end Stormnetboot.Server
