import QueryMask.Main
import QueryMask.Mask.Description
import QueryMask.Proofs.Agreement
import QueryMask.Proofs.Chains
import QueryMask.Proofs.Inlining
import QueryMask.Proofs.Typing
import QueryMask.Proofs.DeclaredTypes
import QueryMask.Proofs.PathComposition
import QueryMask.Proofs.DefinitionOrder
import QueryMask.Proofs.AddressedFields
import QueryMask.Proofs.Visits
import QueryMask.Proofs.Concatenation
import QueryMask.Proofs.Restriction
import QueryMask.Proofs.TypedPaths
import QueryMask.Proofs.Thinning
import QueryMask.Proofs.Spelling
import QueryMask.Proofs.UnknownTypes
import QueryMask.Proofs.ListedTypes
import QueryMask.Proofs.Growth
import QueryMask.Proofs.Questions
import QueryMask.Proofs.Flags
import QueryMask.Proofs.Faults
import QueryMask.Proofs.Reachability
import QueryMask.Proofs.SiblingFields
import QueryMask.Proofs.ActiveFragments
