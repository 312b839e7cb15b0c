import PromptCanvas.Plane.Metrics
import PromptCanvas.Record.Reading
import PromptCanvas.Settings.Lookup
import PromptCanvas.Text.Path

/-!
# Settings

What can be set for a canvas and its service.  A setting that is not given has its usual value.  An
override of an unknown name is a problem; an unknown name in the environment is not.
-/

namespace PromptCanvas

open Record

structure Settings where
  dataDir : String
  assetDbName : String
  /-- The aspect ratio of a picture without a composition that sets one. -/
  defaultAspectRatio : String
  metrics : Metrics Float
  serverHost : String
  serverPort : Int

namespace Settings

/-- A path in its one way of writing. -/
def path : Reading String
  | .str s => .ok (Text.normalPath s)
  | _ => .fail .notPath

/-- Reads settings from what is given, each by its name. -/
def readMetrics (o : List (String × Json)) : Checked (Metrics Float) :=
  let size (name : String) (usual : Float) : Checked Float :=
    Reading.given o name Reading.positive usual
  let space (name : String) (usual : Float) : Checked Float :=
    Reading.given o name Reading.nonNegative usual
  let depth : Checked Nat :=
    (Reading.given o "max_push_depth" (Reading.wholeWithin 1 (some 50)) 5).map Int.toNat
  let heights := (Checked.both Metrics.mk (size "node_width" 200.0)
    (size "collapsed_height" 50.0)).ap (size "expanded_height" 120.0)
  let pushes := (heights.ap (space "collision_gap" 20.0)).ap depth
  let pins := (pushes.ap (size "port_radius" 12.0)).ap (space "port_offset_y" 24.0)
  let groups := (pins.ap (space "group_padding" 20.0)).ap (space "group_header_height" 30.0)
  let range := (groups.ap (size "min_zoom" 0.1)).ap (size "max_zoom" 5.0)
  (range.ap (size "zoom_step" 0.1)).ap (size "wheel_zoom_factor" 0.001)

/-- Reads all settings. -/
def read (l : Lookup) (env : List (String × String)) (overrides : List (String × Json)) :
    Checked Settings :=
  let o := l.given env overrides
  let text (name usual : String) : Checked String := Reading.given o name Reading.text usual
  let paths := Checked.both mk (Reading.given o "data_dir" path "data")
    (text "asset_db_name" "assets.db")
  let canvas := (paths.ap (text "default_aspect_ratio" "1:1")).ap (readMetrics o)
  let server := (canvas.ap (text "server_host" "127.0.0.1")).ap
    (Reading.given o "server_port" (Reading.wholeWithin 1024 (some 65535)) 8000)
  Reading.closed names (l.overridden overrides) server

/-- Where the assets are kept. -/
def assetDbPath (s : Settings) : String := Text.joinPath s.dataDir s.assetDbName

end Settings
end PromptCanvas
