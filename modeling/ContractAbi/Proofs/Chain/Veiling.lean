import ContractAbi.Chain.Proxy

/-!
# Readers that differ in code

The search for what a contract delegates to asks of other contracts only whether they have code. It
cannot tell readers apart between which the code itself differs.

* `ChainReader.Veils`: readers that differ in code only;
* `Proxy.detect_of_veils` and `Proxy.detectFacets_of_veils`: the search is the same with both.
-/

namespace ContractAbi

/-- The second reader has code at the same addresses as the first one, and for the rest answers as
that one does. -/
structure ChainReader.Veils (r q : ChainReader) : Prop where
  held : ∀ address, Proxy.hasCode q address = Proxy.hasCode r address
  storage : q.storage = r.storage
  call : q.call = r.call

namespace Proxy

variable {r q : ChainReader}

variable [AddressLibrary]

theorem probe_of_veils (h : r.Veils q) : probe q = probe r := by
  have hconfirm : confirm q = confirm r := by
    funext address slot candidate
    unfold confirm
    rw [h.held]
  have hword : readWord q = readWord r := by
    funext address slot
    unfold readWord
    rw [h.storage]
  have hbeacon : askBeacon q = askBeacon r := by
    funext beacon
    unfold askBeacon
    rw [h.call]
  have hafterWord : afterWord q = afterWord r := by
    funext address slot word
    unfold afterWord
    rw [hbeacon, hconfirm]
  have hafterBeacon : afterBeacon q = afterBeacon r := by
    funext address slot stage
    unfold afterBeacon
    rw [hconfirm]
  funext address slots
  unfold probe
  rw [hword, hafterWord, hafterBeacon]

theorem detect_of_veils (h : r.Veils q) (settings : Settings) :
    detect settings q = detect settings r := by
  have hheld : hasCode q = hasCode r := funext h.held
  have hclone : cloneTarget q = cloneTarget r := by
    funext code
    unfold cloneTarget
    rw [hheld]
  have hdetectAt : detectAt settings q = detectAt settings r := by
    funext address selectors code
    unfold detectAt
    rw [hclone, probe_of_veils h]
  funext address selectors code
  unfold detect
  rw [hdetectAt]

theorem detectFacets_of_veils (h : r.Veils q) : detectFacets q = detectFacets r := by
  funext address selectors
  unfold detectFacets
  rw [h.call]

end Proxy

end ContractAbi
