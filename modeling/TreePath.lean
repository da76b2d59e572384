import TreePath.Main
import TreePath.Overrides
import TreePath.Proofs.Cache.ContextIdentity
import TreePath.Proofs.Cache.Inclusion
import TreePath.Proofs.Cache.Isolation
import TreePath.Proofs.Cache.StateMap
import TreePath.Proofs.Expression.Edit
import TreePath.Proofs.Overrides.Ordered
import TreePath.Proofs.Resolver.Strict
import TreePath.Proofs.Tree.Address
import TreePath.Proofs.Cache.Interleaving
import TreePath.Proofs.Overrides.Resolution
import TreePath.Proofs.Resolver.Shape
import TreePath.Proofs.Resolver.Widening
import TreePath.Proofs.Resolver.Overlap
import TreePath.Proofs.Resolver.Composition
import TreePath.Proofs.Overrides.Breadth
import TreePath.Proofs.Resolver.ReadBack
import TreePath.Proofs.Tree.Evaluation
import TreePath.Proofs.Expression.FirstFault
import TreePath.Proofs.Cache.Accounts
import TreePath.Proofs.Cache.ArtifactLookup
import TreePath.Proofs.Expression.StepsBack
import TreePath.Proofs.Config
import TreePath.Proofs.Load
