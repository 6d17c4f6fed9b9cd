import HwDrivers.Segment
import HwDrivers.Scanf
import HwDrivers.Producer
import HwDrivers.Reader
import HwDrivers.Semaphore
import HwDrivers.Cache
import HwDrivers.Admission
import HwDrivers.Shutdown
import HwDrivers.I2c2
import HwDrivers.Config
import HwDrivers.Printf
import HwDrivers.Device
import HwDrivers.Record
import HwDrivers.Debounce
import HwDrivers.Bmp280
import HwDrivers.FileRead
import HwDrivers.Fifo
import HwDrivers.ConnHandler
import HwDrivers.SevenSeg
import HwDrivers.Conversion
import HwDrivers.Server
