import ContractAbi.Proofs.Cache
import ContractAbi.Proofs.Interface.ResultItem
import Mathlib.Data.Option.Basic
import Mathlib.Data.List.Forall2

/-!
# Records that mirror each other

A record that has been written and read again has the key, the time and the mark of the first one,
and a result that is written alike. Looking up, storing and reading again do not tell such records
apart.

* `CacheRecord.Mirrors` and `CacheRecord.exists_ofItem`: mirrored records stay so when read;
* `ResultCache.rel_find?` and `ResultCache.mirrors_insert`: looking up and storing;
* `ResultCache.exists_openFile`: a file with mirrored records gives such records again.
-/

namespace ContractAbi

/-- The second result is the first one, or has been read from its item. -/
def Reconstruction.Mirrors (r : Reconstruction) (n : Int) (r' : Reconstruction) : Prop :=
  r' = r ∨ (r.Restores n r' ∧ r'.Regular)

theorem Reconstruction.exists_ofItem {r r' : Reconstruction} {n : Int} (hr : r.Regular)
    (hchain : r.chainId.toWhole = .ok n) (h : r.Mirrors n r') :
    ∃ r'', ofItem r'.toItem = .ok r'' ∧ r.Mirrors n r'' := by
  rcases h with rfl | ⟨hrestores, hr'⟩
  · obtain ⟨r'', hread, hrestores⟩ := ofItem_toItem hr hchain
    exact ⟨r'', hread, .inr ⟨hrestores, (regular_of_ofItem hread).1⟩⟩
  · have hchain' : r'.chainId.toWhole = .ok n := by
      rw [hrestores.chain]
      rfl
    obtain ⟨r'', hread, hagain⟩ := ofItem_toItem hr' hchain'
    have hitem : r''.toItem = (r.onChain n).toItem := by
      rw [hagain.toItem, onChain_of_int hrestores.chain, hrestores.toItem]
    exact ⟨r'', hread, .inr ⟨⟨hagain.chain, hagain.keys.trans hrestores.keys, hitem⟩,
      (regular_of_ofItem hread).1⟩⟩

namespace CacheRecord

structure Regular (q : CacheRecord) : Prop where
  address : ∃ s, q.address = .text s
  result : q.result.Regular

/-- The record goes by something that records can be told apart by, as those of files do, and holds
a regular result. -/
structure Fileable (q : CacheRecord) : Prop where
  address : ∃ v, q.address.asKey = .ok v
  result : q.result.Regular

structure Mirrors (q q' : CacheRecord) : Prop where
  address : q'.address = q.address
  chainId : q'.chainId = q.chainId
  timestamp : q'.timestamp = q.timestamp
  verified : q'.verified = q.verified
  result : ∃ n, q.result.chainId.toWhole = .ok n ∧ q.result.Mirrors n q'.result

variable {p q p' q' : CacheRecord}

theorem Fileable.mirrors (h : q.Fileable) : q.Mirrors q := by
  obtain ⟨n, hn⟩ := h.result.chain
  exact ⟨rfl, rfl, rfl, rfl, n, hn, .inl rfl⟩

theorem Regular.fileable (h : q.Regular) : q.Fileable := by
  obtain ⟨s, hs⟩ := h.address
  have hkey : q.address.asKey = .ok (.text s) := by
    rw [hs]
    rfl
  exact ⟨⟨_, hkey⟩, h.result⟩

theorem Regular.mirrors (h : q.Regular) : q.Mirrors q :=
  h.fileable.mirrors

theorem Mirrors.sameKey (hp : p.Mirrors p') (hq : q.Mirrors q') :
    p'.sameKey q' = p.sameKey q := by
  unfold CacheRecord.sameKey
  rw [hp.address, hp.chainId, hq.address, hq.chainId]

theorem Mirrors.isFresh (h : q.Mirrors q') (now maxAge : Binary64) :
    q'.isFresh now maxAge = q.isFresh now maxAge := by
  unfold CacheRecord.isFresh
  rw [h.timestamp, h.verified]

/-- A mirrored record is read from its item, and is mirrored still. -/
theorem exists_ofItem (hq : q.result.Regular) (h : q.Mirrors q') :
    ∃ q'', ofItem q'.toItem = .ok q'' ∧ q.Mirrors q'' := by
  obtain ⟨n, hn, hresult⟩ := h.result
  obtain ⟨r, hread, hr⟩ := Reconstruction.exists_ofItem hq hn hresult
  refine ⟨⟨q'.address, q'.chainId, r, q'.timestamp, q'.verified⟩, ?_, h.address, h.chainId,
    h.timestamp, h.verified, n, hn, hr⟩
  have haddress : q'.toItem.require "address" = .ok q'.address := rfl
  have hid : q'.toItem.require "chainId" = .ok (.int q'.chainId) := rfl
  have hitem : q'.toItem.require "result" = .ok q'.result.toItem := rfl
  have htime : q'.toItem.require "timestamp" = .ok (.float q'.timestamp) := rfl
  have hmark : q'.toItem.require "verified" = .ok (.bool q'.verified) := rfl
  have hwhole : (Value.int q'.chainId).toWhole = .ok q'.chainId := rfl
  have hdouble : (Value.float q'.timestamp).toDouble = .ok q'.timestamp := rfl
  rw [ofItem, haddress, Except.ok_bind, hid, Except.ok_bind, hwhole, Except.ok_bind, hitem,
    Except.ok_bind, hread, Except.ok_bind, htime, Except.ok_bind, hdouble, Except.ok_bind, hmark,
    Except.ok_bind]
  rfl

end CacheRecord

namespace ResultCache

open CacheRecord

variable {records mirrored : List CacheRecord} {q q' : CacheRecord}

/-! ## Looking up and storing -/

theorem rel_find? (h : List.Forall₂ Mirrors records mirrored) (address : String) (n : Int) :
    Option.Rel Mirrors (records.find? (isFor address n)) (mirrored.find? (isFor address n)) := by
  induction h with
  | nil => exact .none
  | @cons p p' _ _ hp _ ih =>
      have hsame : isFor address n p' = isFor address n p := by
        unfold isFor
        rw [hp.address, hp.chainId]
      rw [List.find?_cons, List.find?_cons, hsame]
      split
      · exact .some hp
      · exact ih

theorem any_sameKey (h : List.Forall₂ Mirrors records mirrored) (hq : q.Mirrors q') :
    mirrored.any q'.sameKey = records.any q.sameKey := by
  induction h with
  | nil => rfl
  | cons hp _ ih => rw [List.any_cons, List.any_cons, hq.sameKey hp, ih]

theorem mirrors_insert (h : List.Forall₂ Mirrors records mirrored) (hq : q.Mirrors q') :
    List.Forall₂ Mirrors (insert records q) (insert mirrored q') := by
  unfold insert
  rw [any_sameKey h hq]
  split
  · rw [List.forall₂_map_left_iff, List.forall₂_map_right_iff]
    refine h.imp fun p p' hp => ?_
    rw [hq.sameKey hp]
    split
    · exact hq
    · exact hp
  · exact List.rel_append h (.cons hq .nil)

/-! ## Reading -/

theorem exists_mapM_ofItem (hfileable : ∀ q ∈ records, q.Fileable)
    (h : List.Forall₂ Mirrors records mirrored) :
    ∃ again, (mirrored.map CacheRecord.toItem).mapM CacheRecord.ofItem = .ok again ∧
      List.Forall₂ Mirrors records again := by
  induction h with
  | nil => exact ⟨[], rfl, .nil⟩
  | cons hp _ ih =>
      obtain ⟨p'', hread, hmirrors⟩ := exists_ofItem (hfileable _ List.mem_cons_self).result hp
      obtain ⟨again, hrest, hall⟩ := ih fun q hq => hfileable q (List.mem_cons_of_mem _ hq)
      refine ⟨p'' :: again, ?_, .cons hmirrors hall⟩
      rw [List.map_cons, List.mapM_cons, hread, Except.ok_bind, hrest]
      rfl

theorem foldl_insert (h : List.Pairwise (fun p q => p.sameKey q = false) records) :
    records.foldl insert [] = records := by
  induction records using List.reverseRecOn with
  | nil => rfl
  | append_singleton rest q ih =>
      obtain ⟨hrest, -, hnew⟩ := List.pairwise_append.1 h
      have hnone : ¬rest.any q.sameKey = true := by
        rw [List.any_eq_true]
        rintro ⟨p, hp, hkey⟩
        have hother := hnew p hp q List.mem_cons_self
        rw [Bool.eq_false_iff, Ne, sameKey_iff] at hother
        obtain ⟨haddress, hchain⟩ := sameKey_iff.1 hkey
        exact hother ⟨haddress.symm, hchain.symm⟩
      rw [List.foldl_append, ih hrest, List.foldl_cons, List.foldl_nil, insert, if_neg hnone]

theorem pairwise_sameKey (h : List.Forall₂ Mirrors records mirrored)
    (hrecords : records.Pairwise fun p q => p.sameKey q = false) :
    mirrored.Pairwise fun p q => p.sameKey q = false := by
  have hkeys : mirrored.map (fun q => (q.address, q.chainId)) =
      records.map fun q => (q.address, q.chainId) := by
    induction h with
    | nil => rfl
    | cons hp _ ih =>
        rw [List.map_cons, List.map_cons, hp.address, hp.chainId,
          ih (List.pairwise_cons.1 hrecords).2]
  -- keys alone tell records apart
  have hpairs : ∀ l : List CacheRecord, (l.Pairwise fun p q => p.sameKey q = false) ↔
      (l.map fun q => (q.address, q.chainId)).Pairwise
        fun a b => (a.1.same b.1 && a.2 == b.2) = false := by
    intro l
    rw [List.pairwise_map]
    rfl
  rw [hpairs, hkeys, ← hpairs]
  exact hrecords

theorem exists_asKey (hfileable : ∀ q ∈ records, q.Fileable)
    (h : List.Forall₂ Mirrors records mirrored) : ∀ q ∈ mirrored, ∃ v, q.address.asKey = .ok v := by
  induction h with
  | nil => simp
  | cons hp _ ih =>
      intro q hq
      rcases List.mem_cons.1 hq with rfl | hq
      · rw [hp.address]
        exact (hfileable _ List.mem_cons_self).address
      · exact ih (fun p hp => hfileable p (List.mem_cons_of_mem _ hp)) q hq

theorem forM_asKey (h : ∀ q ∈ records, ∃ v, q.address.asKey = .ok v) :
    (records.forM fun q => q.address.asKey.map fun _ => ()) = Except.ok () := by
  induction records with
  | nil => rfl
  | cons q rest ih =>
      obtain ⟨v, hv⟩ := h q List.mem_cons_self
      have hfirst : (q.address.asKey.map fun _ => ()) = Except.ok () := by
        rw [hv]
        rfl
      rw [List.forM, hfirst]
      exact ih fun p hp => h p (List.mem_cons_of_mem _ hp)

/-- The document of the cache is read as the value that it was written from. -/
def ReadsBack [JsonReader.Stack] (c : ResultCache) : Prop :=
  valueOfFile c.content = .ok c.toItem

/-- A file with the document of mirrored records gives such records again. -/
theorem exists_openFile [JsonReader.Stack] {c : ResultCache} (path : String) (maxAge : Binary64)
    (hfileable : ∀ q ∈ records, q.Fileable)
    (hdistinct : records.Pairwise fun p q => p.sameKey q = false)
    (h : List.Forall₂ Mirrors records c.records) (hback : c.ReadsBack) :
    ∃ again, (openFile path maxAge (some c.content)).result = .ok ⟨maxAge, again⟩ ∧
      List.Forall₂ Mirrors records again := by
  obtain ⟨again, hread, hagain⟩ := exists_mapM_ofItem hfileable h
  have hrecords : (valueOfFile c.content).bind recordsOfValue = .ok again := by
    rw [hback]
    exact hread
  have hkept := foldl_insert (pairwise_sameKey hagain hdistinct)
  refine ⟨again, ?_, hagain⟩
  unfold openFile ofFile
  dsimp only
  rw [hrecords]
  dsimp only
  rw [Traced.result_bind, Traced.result_ofExcept, forM_asKey (exists_asKey hfileable hagain),
    Except.ok_bind, hkept]
  rfl

end ResultCache

end ContractAbi
