import ContractAbi.Assembler
import ContractAbi.Proofs.Loader

/-!
# Services from tables

Services whose answers are written down beforehand. What stands in no table is absent.
-/

namespace ContractAbi.Assembler

structure Tables where
  codes : List (String × Value)
  words : List ((String × Value) × Value)
  calls : List ((String × Bytes) × Value)
  /-- The published interfaces. -/
  abis : List (Value × Value)
  signatures : SignatureTable

namespace Tables

def empty : Tables :=
  ⟨[], [], [], [], ⟨[], []⟩⟩

def reader (t : Tables) : ChainReader where
  code address := .answer ((t.codes.lookup address).getD .null)
  storage address slot := .answer ((t.words.lookup (address, slot)).getD .null)
  call address data := .answer ((t.calls.lookup (address, data)).getD .null)
  chainId := .answer .null

def loader (t : Tables) : AbiLoader where
  name := "static"
  fetch address _ := .answer ((t.abis.lookup address).getD .null)

def services (t : Tables) : Services where
  reader := t.reader
  sources := [t.signatures.source]
  loaders := [t.loader]
  now := .ofInt 0

theorem mem_abis_of_loadVerified {t : Tables} {address chain abi : Value}
    (h : (AbiLoader.loadVerified t.services.loaders address chain).result = .ok (some abi)) :
    (address, abi) ∈ t.abis := by
  obtain ⟨before, loader, after, hloaders, hfetch, hholds, -⟩ :=
    AbiLoader.loadVerified_eq_some_iff.1 h
  have hloader : loader = t.loader := by
    have hmem : loader ∈ t.services.loaders := by simp [hloaders]
    exact List.mem_singleton.1 hmem
  rw [hloader] at hfetch
  have hgiven : (t.abis.lookup address).getD .null = abi := Except.ok.inj hfetch
  cases hlookup : t.abis.lookup address with
  | none =>
      rw [← hgiven, hlookup] at hholds
      exact absurd hholds (by decide)
  | some v =>
      rw [hlookup] at hgiven
      obtain rfl : v = abi := hgiven
      obtain ⟨front, back, hsplit, -⟩ := List.lookup_eq_some_iff.1 hlookup
      rw [hsplit]
      simp

end Tables

end ContractAbi.Assembler
