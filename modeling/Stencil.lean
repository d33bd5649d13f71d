import Stencil.Proofs.Files.Written
import Stencil.Main
import Stencil.Session
import Stencil.Proofs.Caches.DirectPut
import Stencil.Proofs.Caches.Footprint
import Stencil.Proofs.Caches.WorkingSet
import Stencil.Proofs.Command.Line
import Stencil.Proofs.Command.Rendering
import Stencil.Proofs.Context.RoundTrip
import Stencil.Proofs.Lru.Inclusion
import Stencil.Proofs.Marker.Decomposition
import Stencil.Proofs.Renderer.Batches
import Stencil.Proofs.Rendering.Dependence
import Stencil.Proofs.Rendering.Positional
import Stencil.Proofs.Session.LastWriter
import Stencil.Proofs.Session.Transparency
import Stencil.Proofs.Template.Tiling
import Stencil.Proofs.Token.RoundTrip
import Stencil.Proofs.Rendering.Supply
import Stencil.Proofs.Tuple.Concatenation
import Stencil.Proofs.Rendering.Concatenation
import Stencil.Proofs.Rendering.Staged
import Stencil.Proofs.Rendering.Escape
import Stencil.Proofs.Capacities.Setting
import Stencil.Proofs.Command.Assignment
import Stencil.Proofs.Command.Listing
import Stencil.Proofs.Lru.Invariant
