import Stencil.CommandLine.Places
import Stencil.Main
import Stencil.Proofs.Lookup
import Stencil.Proofs.Merging
import Stencil.Proofs.Adequacy
import Stencil.Proofs.Arguments
import Stencil.Proofs.Attribution
import Stencil.Proofs.Bindings
import Stencil.Proofs.Blame
import Stencil.Proofs.Checking
import Stencil.Proofs.Circles
import Stencil.Proofs.Closed
import Stencil.Proofs.Confinement
import Stencil.Proofs.Containment
import Stencil.Proofs.Escaping
import Stencil.Proofs.Extremes
import Stencil.Proofs.Failures
import Stencil.Proofs.Grammar
import Stencil.Proofs.Grouping
import Stencil.Proofs.History
import Stencil.Proofs.Hygiene
import Stencil.Proofs.Imports
import Stencil.Proofs.Inclusion
import Stencil.Proofs.Inheritance
import Stencil.Proofs.Limits
import Stencil.Proofs.Lines
import Stencil.Proofs.Mentions
import Stencil.Proofs.Moments
import Stencil.Proofs.Pieces
import Stencil.Proofs.RoundTrip
import Stencil.Proofs.Rounding
import Stencil.Proofs.Separators
import Stencil.Proofs.Slices
import Stencil.Proofs.Stripping
import Stencil.Proofs.Unreachable
