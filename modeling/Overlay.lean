import Overlay.Main
import Overlay.Picture.Run
import Overlay.Store.Run
import Overlay.Proofs.Clock.Cadence
import Overlay.Proofs.Clock.Firing
import Overlay.Proofs.Command.Numbering
import Overlay.Proofs.Picture.Acceptance
import Overlay.Proofs.Picture.Constraints
import Overlay.Proofs.Picture.Kinds
import Overlay.Proofs.Picture.Opacity
import Overlay.Proofs.Picture.Orbits
import Overlay.Proofs.Picture.Orphans
import Overlay.Proofs.Picture.Pauses
import Overlay.Proofs.Picture.Phases
import Overlay.Proofs.Picture.Protocol
import Overlay.Proofs.Picture.Trajectory
import Overlay.Proofs.Script.Lines
import Overlay.Proofs.Script.Offsets
import Overlay.Proofs.Script.Reals
import Overlay.Proofs.Script.Signs
import Overlay.Proofs.Script.Wholes
import Overlay.Proofs.Store.Slots
import Overlay.Proofs.Store.Waiting
import Overlay.Proofs.Tiling.Bounds
import Overlay.Proofs.Tiling.Fill
import Overlay.Proofs.Tiling.Parameters
import Overlay.Proofs.Tiling.Stagger
