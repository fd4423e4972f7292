import ContractAbi.Address.Libraries
import ContractAbi.Value.Reader

/-!
# What the program takes

Addresses are taken with digits of any case, and JSON is read on a stack of a thousand calls.
-/

attribute [instance] ContractAbi.AddressLibrary.anyCase ContractAbi.JsonReader.Stack.thousand
