import DiffTensor.Host.Layer
import DiffTensor.Host.Operation
import DiffTensor.Host.Optimizer
import DiffTensor.Library.Reference
import DiffTensor.Library.Rehearsal
import DiffTensor.Random.Double
import DiffTensor.Scalar.Double
import DiffTensor.Session.Boundary
import DiffTensor.Session.Direct
import DiffTensor.Session.Draws
import DiffTensor.Session.Graph
import DiffTensor.Session.Host
import DiffTensor.Proofs.Agreement
import DiffTensor.Proofs.Atomicity
import DiffTensor.Proofs.Compatible
import DiffTensor.Proofs.Counting
import DiffTensor.Proofs.Discipline
import DiffTensor.Proofs.Divisors
import DiffTensor.Proofs.Engine
import DiffTensor.Proofs.Export
import DiffTensor.Proofs.ForwardMode
import DiffTensor.Proofs.FusedLinear
import DiffTensor.Proofs.GradientLife
import DiffTensor.Proofs.IdleSteps
import DiffTensor.Proofs.Interruption
import DiffTensor.Proofs.Matrix
import DiffTensor.Proofs.Metadata
import DiffTensor.Proofs.Partition
import DiffTensor.Proofs.PathSum
import DiffTensor.Proofs.RandomStream
import DiffTensor.Proofs.Reduction
import DiffTensor.Proofs.Semilattice
import DiffTensor.Proofs.SessionFrame
import DiffTensor.Proofs.Surfacing
