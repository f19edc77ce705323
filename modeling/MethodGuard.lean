import MethodGuard.Main
import MethodGuard.Member.Script
import MethodGuard.Proofs.Call.Checkpoints
import MethodGuard.Proofs.Call.Overrides
import MethodGuard.Proofs.Call.Respelling
import MethodGuard.Proofs.Call.Strict
import MethodGuard.Proofs.Catalog.CommandLine
import MethodGuard.Proofs.Class.Stages
import MethodGuard.Proofs.Signature.Mistyped
import MethodGuard.Proofs.Signature.Repeated
import MethodGuard.Proofs.Signature.RoundTrip
import MethodGuard.Proofs.Structure.Contract
import MethodGuard.Proofs.TypeSpec.FirstFault
import MethodGuard.Proofs.TypeSpec.Name
import MethodGuard.Proofs.TypeSpec.Widening
import MethodGuard.Proofs.Value.ReadBack
import MethodGuard.Proofs.Value.Readings
import MethodGuard.Proofs.Value.UpToOrder
import MethodGuard.Proofs.World.NameMap
import MethodGuard.Proofs.World.Prediction
import MethodGuard.Proofs.World.Search
