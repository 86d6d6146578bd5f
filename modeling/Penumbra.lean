import Penumbra.Camera
import Penumbra.Color
import Penumbra.Config.Basic
import Penumbra.Config.Text
import Penumbra.Config.Watch
import Penumbra.Failure
import Penumbra.Frame.Command
import Penumbra.Frame.Compose
import Penumbra.Frame.Depth
import Penumbra.Frame.DeviceMemory
import Penumbra.Frame.GraphicsDevice
import Penumbra.Frame.MaskAtlas
import Penumbra.Frame.Occlusion
import Penumbra.Frame.PointLight
import Penumbra.Frame.Post
import Penumbra.Frame.Recorder
import Penumbra.Frame.Renderer
import Penumbra.Frame.Script
import Penumbra.Frame.Selection
import Penumbra.Frame.State
import Penumbra.Frame.Stats
import Penumbra.Frame.Target
import Penumbra.Geometry.Affine
import Penumbra.Geometry.Box2
import Penumbra.Geometry.Circle
import Penumbra.Geometry.Pose
import Penumbra.Geometry.RotatedBox
import Penumbra.Geometry.Vec2
import Penumbra.Illumination
import Penumbra.Json.Components
import Penumbra.Json.Numeral
import Penumbra.Json.Printer
import Penumbra.Json.Reader
import Penumbra.Json.Record
import Penumbra.Json.Shapes
import Penumbra.Json.Value
import Penumbra.Light.Basic
import Penumbra.Memory
import Penumbra.Numeric.Binary32
import Penumbra.Numeric.Decimal
import Penumbra.Numeric.Rounding
import Penumbra.Numeric.Scalar
import Penumbra.Numeric.Single
import Penumbra.Numeric.Trigonometry
import Penumbra.Occluder
import Penumbra.Text.Blank
import Penumbra.Text.Hexadecimal
import Penumbra.World.Basic
import Penumbra.World.Index
import Penumbra.Proofs.Numeric.Comparison
import Penumbra.Proofs.Numeric.Exact
import Penumbra.Proofs.Numeric.Values
import Penumbra.Proofs.Numeric.Counts
import Penumbra.Proofs.Numeric.Rounding
import Penumbra.Proofs.Numeric.Decimals
import Penumbra.Proofs.Numeric.Nearest
import Penumbra.Proofs.Numeric.Packing
import Penumbra.Proofs.Numeric.Operations
import Penumbra.Proofs.Numeric.Arithmetic
import Penumbra.Proofs.Numeric.Pixels
import Penumbra.Proofs.Geometry.Motions
import Penumbra.Proofs.Geometry.Boxes
import Penumbra.Proofs.Geometry.Segments
import Penumbra.Proofs.Geometry.Rectangles
import Penumbra.Proofs.Camera
import Penumbra.Proofs.Selection
import Penumbra.Proofs.Color
import Penumbra.Proofs.Falloff
import Penumbra.Proofs.MachineFalloff
import Penumbra.Proofs.Radius
import Penumbra.Proofs.Json.Numerals
import Penumbra.Proofs.Json.Literals
import Penumbra.Proofs.Json.Written
import Penumbra.Proofs.Config.Watched
import Penumbra.Proofs.Config.Saved
import Penumbra.Proofs.World.Action
import Penumbra.Proofs.World.Directory
import Penumbra.Proofs.World.Operations
import Penumbra.Proofs.World.Roster
import Penumbra.Proofs.World.Numbering
import Penumbra.Proofs.World.Notice
import Penumbra.Proofs.World.Isolation
import Penumbra.Proofs.World.Outline
import Penumbra.Proofs.World.Sight
import Penumbra.Proofs.World.Walls
import Penumbra.Proofs.World.Brightness
import Penumbra.Proofs.World.Darkness
import Penumbra.Proofs.World.Places
import Penumbra.Proofs.Frame.Trace
import Penumbra.Proofs.Frame.Course
import Penumbra.Proofs.Frame.Scene
import Penumbra.Proofs.Frame.Log
import Penumbra.Proofs.Frame.Recovery
import Penumbra.Proofs.Frame.Session
import Penumbra.Proofs.Frame.Protocol
import Penumbra.Proofs.Frame.Refusal
import Penumbra.Proofs.Frame.Reload
import Penumbra.Proofs.Frame.DepthRuns
import Penumbra.Proofs.Frame.DeviceRules
import Penumbra.Proofs.Frame.Room
import Penumbra.Proofs.Frame.Accepted
import Penumbra.Proofs.Frame.Faultless
import Penumbra.Proofs.Frame.ShadowRows
import Penumbra.Proofs.Frame.Batching
import Penumbra.Proofs.Frame.Buffers
import Penumbra.Proofs.Frame.Textures
import Penumbra.Proofs.Frame.WallFaces
import Penumbra.Proofs.Frame.DeviceWrites
import Penumbra.Proofs.Frame.DeviceCalls
import Penumbra.Proofs.Frame.TurnedFaces
import Penumbra.Proofs.Frame.Culling
import Penumbra.Proofs.Frame.LightQuads
import Penumbra.Proofs.Frame.Footprint
import Penumbra.Proofs.Frame.MaskLayout
import Penumbra.Proofs.Frame.AtlasUpload
import Penumbra.Proofs.Frame.Changes
import Penumbra.Proofs.Frame.MasksInUse
import Penumbra.Proofs.Geometry.Overlap
import Penumbra.Proofs.Geometry.LeastBoxes
import Penumbra.Proofs.Frame.ExpandedBounds
