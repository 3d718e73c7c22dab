import Toolpath.Collision.Contact
import Toolpath.Main
import Toolpath.Cell.Scanning
import Toolpath.Proofs.Coupling.Loop
import Toolpath.Proofs.Coupling.Resolution
import Toolpath.Proofs.Coupling.Scanning
import Toolpath.Proofs.Listing
import Toolpath.Proofs.Naming
import Toolpath.Proofs.Planes
import Toolpath.Proofs.Sequencing
import Toolpath.Proofs.Compilation
import Toolpath.Proofs.Exact.Scalar
import Toolpath.Proofs.Attributes
import Toolpath.Proofs.Totality
import Toolpath.Proofs.Exact.Clock
import Toolpath.Proofs.Exact.Timeline
import Toolpath.Proofs.Exact.Rigid
import Toolpath.Proofs.Exact.Turning
import Toolpath.Proofs.Reaching
import Toolpath.Proofs.Exact.Branches
import Toolpath.Proofs.Exact.Frames
import Toolpath.Proofs.Exact.Reach
import Toolpath.Proofs.Exact.Directions
import Toolpath.Proofs.Exact.Columns
import Toolpath.Proofs.Exact.Wrist
import Toolpath.Proofs.Exact.Nearest
import Toolpath.Proofs.Exact.Shortest
import Toolpath.Proofs.Exact.Spherical
import Toolpath.Proofs.Exact.Redundant
import Toolpath.Proofs.Exact.Triangle
import Toolpath.Proofs.Exact.Offset
import Toolpath.Proofs.Exact.Covering
import Toolpath.Proofs.Motions
import Toolpath.Proofs.Preparation
import Toolpath.Proofs.Exact.Interpolation
import Toolpath.Proofs.Exact.JointMotion
import Toolpath.Proofs.Exact.Passing
import Toolpath.Proofs.Exact.Passage
import Toolpath.Proofs.Truncation
import Toolpath.Proofs.Duration
import Toolpath.Proofs.Exact.Positions
import Toolpath.Proofs.Exact.Pacing
import Toolpath.Proofs.Exact.Following
import Toolpath.Proofs.Exact.Resolved
import Toolpath.Proofs.Exact.Arrival
import Toolpath.Proofs.Continuation
import Toolpath.Proofs.Recasting
import Toolpath.Proofs.Causality
import Toolpath.Proofs.Malformed
import Toolpath.Proofs.Exact.Relocation
import Toolpath.Proofs.Exact.Equivariance
import Toolpath.Proofs.Exact.Departure
import Toolpath.Proofs.Playback.Posing
import Toolpath.Proofs.Playback.Rising
import Toolpath.Proofs.Playback.History
import Toolpath.Proofs.Playback.Surrounding
import Toolpath.Proofs.Collision.Sweep
import Toolpath.Proofs.Collision.Reporting
import Toolpath.Proofs.Collision.Search
import Toolpath.Proofs.Collision.Agreement
import Toolpath.Proofs.Layout
import Toolpath.Proofs.Collision.Numbering
import Toolpath.Attribute.Renamer
import Toolpath.Proofs.Renamer
import Toolpath.Proofs.Sharing
import Toolpath.Proofs.Anchoring
import Toolpath.Proofs.Exact.Ranges
import Toolpath.Proofs.Collision.Density
import Toolpath.Program.Stored
import Toolpath.Proofs.Storing
import Toolpath.Proofs.Shape
import Toolpath.Proofs.Keeping
import Toolpath.Proofs.Exact.JointKeyframes
import Toolpath.Proofs.Ranging
import Toolpath.Proofs.CommandCode
import Toolpath.Proofs.Exact.Subdivision
import Toolpath.Proofs.Exact.Compression
import Toolpath.Proofs.Exact.Matrices
import Toolpath.Proofs.Links
import Toolpath.Proofs.Exact.Parameters
import Toolpath.Proofs.Exact.Number
import Toolpath.Proofs.Document
import Toolpath.Attribute.Search
import Toolpath.Proofs.NameSearch
